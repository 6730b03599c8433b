import Tpmkit.FakeTcti
import Tpmkit.FifoHistory

/-!
# Delivery of the scripted entries

Over every run of the fake TCTI the scripted entries are delivered once each and
in the order in which they were pushed.  The one place where this could go wrong
is a receive that copies the head of the queue and takes it off later; it goes
right because what is pushed between lands behind the head.
-/

namespace Tpmkit

variable {φ : Type}

/-! ## What a step delivers -/

namespace FakeTctiStep

variable (step : FakeTctiStep φ)

/-- The step takes an entry off the queue. -/
def consumes : Bool := step.after.pendingResponses < step.before.pendingResponses

/-- The bytes arrive at the start of the caller's buffer, with their exact size. -/
def HandsOver (bytes : List UInt8) : Prop :=
  ∃ pending n memory, step.before.receiving = some pending ∧ pending.args.size = some n ∧
    pending.args.response = some memory ∧ bytes.length ≤ n ∧
    step.reply = .received
      ⟨tss2RcSuccess, some bytes.length, some (bytes ++ memory.drop bytes.length)⟩

/-- The caller gets what the entry scripts: the bytes, the output of the factory for the
command that was transmitted last, or the return code. -/
def Delivers : QueuedResult φ → Prop
  | .responseBytes bytes =>
      (∃ behaviour, step.action = .finishReceive behaviour) ∧ step.HandsOver bytes
  | .responseFactory factory => ∃ behaviour bytes, step.action = .finishReceive behaviour ∧
      behaviour factory step.before.lastCommand = some bytes ∧ step.HandsOver bytes
  | .failureRc rc => ∃ context args, step.action = .receive context args ∧
      step.reply = .received ⟨rc, args.size.map fun _ => 0, args.response⟩
  | .transmitFailureRc rc => ∃ context args, step.action = .transmit context args ∧
      step.reply = .transmitted rc

/-- The step takes the entry off the front of the queue and delivers it. -/
def TakesOff (entry : QueuedResult φ) : Prop :=
  step.before.queue = entry :: step.after.queue ∧ step.Delivers entry

/-- A step that takes an entry off makes the queue shorter. -/
theorem consumes_of_takesOff {step : FakeTctiStep φ} {entry : QueuedResult φ}
    (h : step.TakesOff entry) : step.consumes = true := by
  simp [consumes, FakeTcti.pendingResponses, h.1]

/-- What only adds to the queue takes nothing off. -/
theorem not_consumes_of_append {step : FakeTctiStep φ} {added : List (QueuedResult φ)}
    (h : step.after.queue = step.before.queue ++ added) : step.consumes = false := by
  have hlength : step.before.pendingResponses ≤ step.after.pendingResponses := by
    rw [FakeTcti.pendingResponses, FakeTcti.pendingResponses, h, List.length_append]
    exact Nat.le_add_right _ _
  exact decide_eq_false (Nat.not_lt.mpr hlength)

/-- A step that leaves the queue alone takes nothing off. -/
theorem not_consumes_of_eq {step : FakeTctiStep φ}
    (h : step.after.queue = step.before.queue) : step.consumes = false :=
  not_consumes_of_append (h.trans (List.append_nil _).symm)

end FakeTctiStep

/-- A transmit takes off transmit failures, and nothing else does. -/
theorem FakeTctiStep.transmit_iff_of_takesOff {step : FakeTctiStep φ} {entry : QueuedResult φ}
    (h : step.TakesOff entry) : (∃ context args, step.action = .transmit context args) ↔
      ∃ rc rest, step.before.queue = .transmitFailureRc rc :: rest := by
  obtain ⟨hqueue, hdelivers⟩ := h
  rw [hqueue]
  cases entry with
  | responseBytes bytes =>
      obtain ⟨⟨behaviour, haction⟩, _⟩ := hdelivers
      simp [haction]
  | responseFactory factory =>
      obtain ⟨behaviour, bytes, haction, _⟩ := hdelivers
      simp [haction]
  | failureRc rc =>
      obtain ⟨context, args, haction, _⟩ := hdelivers
      simp [haction]
  | transmitFailureRc rc =>
      obtain ⟨context, args, haction, _⟩ := hdelivers
      exact iff_of_true ⟨context, args, haction⟩ ⟨rc, _, rfl⟩

/-! ## The receive between its critical sections -/

/-- What a receive takes along of an entry. -/
def QueuedResult.source (lastCommand : List UInt8) : QueuedResult φ → Option (ResponseSource φ)
  | responseBytes bytes => some (.materialized bytes)
  | responseFactory factory => some (.dynamic factory lastCommand)
  | _ => none

namespace FakeTcti

/-- A receive between its critical sections holds the head of the queue, on a handle
that was not finalized. -/
def HoldsHead (fake : FakeTcti φ) : Prop :=
  ∀ pending, fake.receiving = some pending → fake.owned = true ∧
    ∃ entry rest, fake.queue = entry :: rest ∧
      entry.source fake.lastCommand = some pending.source

/-- Where no receive is on its way there is nothing to hold. -/
theorem holdsHead_of_none {fake : FakeTcti φ} (h : fake.receiving = none) : fake.HoldsHead := by
  intro pending hpending
  rw [h] at hpending
  cases hpending

/-! ### The callbacks one by one -/

/-- A transmit takes off a scripted transmit failure and nothing else. -/
theorem transmit_cases (fake : FakeTcti φ) (context : ContextPointer) (args : TransmitArgs) :
    (fake.transmit context args).2.receiving = fake.receiving ∧
    ((fake.transmit context args).2.queue = fake.queue ∨
      ∃ rc, fake.queue = .transmitFailureRc rc :: (fake.transmit context args).2.queue ∧
        (fake.transmit context args).1 = rc) := by
  unfold transmit
  split
  · exact ⟨rfl, Or.inl rfl⟩
  unfold observeTransmit
  cases hqueue : fake.queue with
  | nil => exact ⟨rfl, Or.inl rfl⟩
  | cons entry rest =>
      cases entry with
      | transmitFailureRc rc => exact ⟨rfl, Or.inr ⟨rc, rfl, rfl⟩⟩
      | _ => exact ⟨rfl, Or.inl rfl⟩

/-- A receive takes off a scripted failure at once.  Otherwise it leaves the queue alone,
and it goes on only with the head in hand. -/
theorem receive_cases (fake : FakeTcti φ) (context : ContextPointer) (args : ReceiveArgs) :
    ((fake.receive context args).2.receiving = fake.receiving ∧ ∃ rc,
      fake.queue = .failureRc rc :: (fake.receive context args).2.queue ∧
        (fake.receive context args).1 = some ⟨rc, args.size.map fun _ => 0, args.response⟩) ∨
    (fake.receive context args).2 = fake ∨
    ((fake.receive context args).2.queue = fake.queue ∧
      (fake.receive context args).2.HoldsHead) := by
  unfold receive
  cases howner : fake.ownerFrom context with
  | false => exact Or.inr (Or.inl rfl)
  | true =>
      have howned : fake.owned = true := by
        cases context with
        | null => cases howner
        | handle => exact howner
      simp only [Bool.not_true, Bool.false_eq_true, if_false]
      unfold peekNext
      cases hqueue : fake.queue with
      | nil => exact Or.inr (Or.inl rfl)
      | cons entry rest =>
          cases entry with
          | failureRc rc => exact Or.inl ⟨rfl, rc, rfl, rfl⟩
          | transmitFailureRc rc => exact Or.inr (Or.inl rfl)
          | responseBytes bytes =>
              refine Or.inr (Or.inr ⟨rfl, ?_⟩)
              intro pending hpending
              cases hpending
              exact ⟨howned, .responseBytes bytes, rest, rfl, rfl⟩
          | responseFactory factory =>
              refine Or.inr (Or.inr ⟨rfl, ?_⟩)
              intro pending hpending
              cases hpending
              exact ⟨howned, .responseFactory factory, rest, rfl, rfl⟩

end FakeTcti

/-- The receive asks for the size only, gives too small a buffer or no size, or finds that
the factory throws. -/
def PendingReceive.Refused (pending : PendingReceive φ) (behaviour : FactoryBehaviour φ) : Prop :=
  pending.args.response = none ∨ pending.args.size = none ∨
    pending.source.bytes behaviour = none ∨
    ∃ n bytes, pending.args.size = some n ∧ pending.source.bytes behaviour = some bytes ∧
      n < bytes.length

/-- A receive that is not refused has a buffer and a size, and room for the bytes that it holds.
-/
theorem PendingReceive.of_not_refused {pending : PendingReceive φ}
    {behaviour : FactoryBehaviour φ} (h : ¬pending.Refused behaviour) :
    ∃ n memory bytes, pending.args.size = some n ∧ pending.args.response = some memory ∧
      pending.source.bytes behaviour = some bytes ∧ bytes.length ≤ n := by
  simp only [Refused, not_or, not_exists, not_and, Nat.not_lt] at h
  obtain ⟨hresponse, hsize, hbytes, hfits⟩ := h
  obtain ⟨memory, hmemory⟩ := Option.ne_none_iff_exists'.mp hresponse
  obtain ⟨n, hn⟩ := Option.ne_none_iff_exists'.mp hsize
  obtain ⟨bytes, hproduced⟩ := Option.ne_none_iff_exists'.mp hbytes
  exact ⟨n, memory, bytes, hn, hmemory, hproduced, hfits n bytes hn hproduced⟩

/-- The call has an entry to take off: an accepted transmit that finds a transmit failure at
the head, a receive that finds a failure there, or one that is not refused the response it
holds. -/
def FakeTctiStep.Due (step : FakeTctiStep φ) : Prop :=
  match step.action with
  | .transmit context args => step.before.ownerFrom context = true ∧ args.dangling = false ∧
      ∃ rc rest, step.before.queue = .transmitFailureRc rc :: rest
  | .receive context _ => step.before.ownerFrom context = true ∧
      ∃ rc rest, step.before.queue = .failureRc rc :: rest
  | .finishReceive behaviour =>
      ∃ pending, step.before.receiving = some pending ∧ ¬pending.Refused behaviour
  | .push _ => False
  | .finalize _ => False

namespace FakeTcti

variable {fake : FakeTcti φ} {pending : PendingReceive φ} {behaviour : FactoryBehaviour φ}

/-- A refused receive copies nothing into a buffer. -/
theorem copyResponse_refused (h : pending.Refused behaviour) {bytes : List UInt8}
    (hbytes : pending.source.bytes behaviour = some bytes) :
    ¬((copyResponse bytes pending.args).rc = tss2RcSuccess ∧
      pending.args.response.isSome = true) := by
  intro hcopied
  obtain ⟨hrc, hresponse⟩ := hcopied
  obtain ⟨memory, hmemory⟩ := Option.isSome_iff_exists.mp hresponse
  rcases h with hnone | hnone | hnone | ⟨n, bytes', hn, hbytes', hlt⟩
  · rw [hmemory] at hnone
    cases hnone
  · have hcode : tss2TctiRcBadReference ≠ tss2RcSuccess := by decide
    rw [copyResponse, hnone] at hrc
    exact hcode hrc
  · rw [hbytes] at hnone
    cases hnone
  · obtain rfl : bytes = bytes' := Option.some.inj (hbytes.symm.trans hbytes')
    have hcode : tss2TctiRcInsufficientBuffer ≠ tss2RcSuccess := by decide
    simp only [copyResponse, hn, hmemory, hlt, if_true] at hrc
    exact hcode hrc

/-- A refused receive leaves everything as it was. -/
theorem finishReceive_refused (h : pending.Refused behaviour) :
    (fake.finishReceive pending behaviour).2 = { fake with receiving := none } := by
  unfold finishReceive
  cases hbytes : pending.source.bytes behaviour with
  | none => rfl
  | some bytes => simp only [copyResponse_refused h hbytes, if_false]

/-- And with a buffer it does not report success. -/
theorem finishReceive_refused_rc (h : pending.Refused behaviour)
    (hresponse : pending.args.response.isSome = true) :
    (fake.finishReceive pending behaviour).1.rc ≠ tss2RcSuccess := by
  unfold finishReceive
  cases hbytes : pending.source.bytes behaviour with
  | none =>
      have hcode : tss2TctiRcGeneralFailure ≠ tss2RcSuccess := by decide
      exact hcode
  | some bytes =>
      have hrefused := copyResponse_refused h hbytes
      simp only [hrefused, if_false]
      exact fun hrc => hrefused ⟨hrc, hresponse⟩

/-- Any other receive copies the bytes out and takes the head off. -/
theorem finishReceive_delivers {entry : QueuedResult φ} {rest : List (QueuedResult φ)} {n : Nat}
    {memory bytes : List UInt8} (hqueue : fake.queue = entry :: rest)
    (hsize : pending.args.size = some n) (hresponse : pending.args.response = some memory)
    (hbytes : pending.source.bytes behaviour = some bytes) (hfits : bytes.length ≤ n) :
    fake.finishReceive pending behaviour =
      (⟨tss2RcSuccess, some bytes.length, some (bytes ++ memory.drop bytes.length)⟩,
        { fake with receiving := none, queue := rest }) := by
  have hcopied : copyResponse bytes pending.args =
      ⟨tss2RcSuccess, some bytes.length, some (bytes ++ memory.drop bytes.length)⟩ := by
    simp only [copyResponse, hsize, hresponse, Nat.not_lt.mpr hfits, if_false]
  simp [finishReceive, hbytes, hcopied, hresponse, popFront, hqueue]

/-! ### What a step does to the queue -/

variable {action : FakeTctiAction φ} {reply : FakeTctiReply} {next : FakeTcti φ}

/-- The steps one by one. -/
inductive Steps (fake : FakeTcti φ) : FakeTctiAction φ → FakeTctiReply → FakeTcti φ → Prop
  | push (entry : QueuedResult φ) : Steps fake (.push entry) .done (fake.pushBack entry)
  | transmit (context : ContextPointer) (args : TransmitArgs) (idle : fake.receiving = none) :
      Steps fake (.transmit context args) (.transmitted (fake.transmit context args).1)
        (fake.transmit context args).2
  | receive (context : ContextPointer) (args : ReceiveArgs) (idle : fake.receiving = none) :
      Steps fake (.receive context args)
        ((fake.receive context args).1.elim .receiving .received) (fake.receive context args).2
  | finishReceive (behaviour : FactoryBehaviour φ) (pending : PendingReceive φ)
      (receiving : fake.receiving = some pending) :
      Steps fake (.finishReceive behaviour) (.received (fake.finishReceive pending behaviour).1)
        (fake.finishReceive pending behaviour).2
  | finalize (context : ContextPointer) (idle : fake.receiving = none) :
      Steps fake (.finalize context) .done (fake.finalize context)

/-- Whatever the fake does is one of the steps that it can take. -/
theorem steps_of_step (h : fake.step action = some (reply, next)) :
    fake.Steps action reply next := by
  cases action with
  | push entry =>
      obtain ⟨rfl, rfl⟩ := Prod.mk.inj (Option.some.inj h)
      rw [push_eq]
      exact .push entry
  | transmit context args =>
      simp only [step, Option.ite_none_left_eq_some, Option.some.injEq, Prod.mk.injEq] at h
      obtain ⟨hidle, rfl, rfl⟩ := h
      exact .transmit context args (Option.not_isSome_iff_eq_none.mp hidle)
  | receive context args =>
      simp only [step, Option.ite_none_left_eq_some, Option.some.injEq, Prod.mk.injEq] at h
      obtain ⟨hidle, rfl, rfl⟩ := h
      exact .receive context args (Option.not_isSome_iff_eq_none.mp hidle)
  | finishReceive behaviour =>
      cases hreceiving : fake.receiving with
      | none => simp [step, hreceiving] at h
      | some pending =>
          simp only [step, hreceiving, Option.some.injEq, Prod.mk.injEq] at h
          obtain ⟨rfl, rfl⟩ := h
          exact .finishReceive behaviour pending hreceiving
  | finalize context =>
      simp only [step, Option.ite_none_left_eq_some, Option.some.injEq, Prod.mk.injEq] at h
      obtain ⟨hidle, rfl, rfl⟩ := h
      exact .finalize context (Option.not_isSome_iff_eq_none.mp hidle)

/-- A step pushes an entry, or takes off the head and delivers it, or leaves the queue. -/
theorem step_cases (hhead : fake.HoldsHead) (h : fake.step action = some (reply, next)) :
    (∃ entry, action = .push entry ∧ next.queue = fake.queue ++ [entry]) ∨
    ((∀ entry, action ≠ .push entry) ∧
      ((∃ entry, FakeTctiStep.TakesOff ⟨fake, action, reply, next⟩ entry) ∨
        next.queue = fake.queue)) := by
  cases steps_of_step h with
  | push entry => exact Or.inl ⟨entry, rfl, rfl⟩
  | transmit context args =>
      refine Or.inr ⟨by simp, ?_⟩
      rcases (fake.transmit_cases context args).2 with hkept | ⟨rc, hqueue, hrc⟩
      · exact Or.inr hkept
      · exact Or.inl ⟨.transmitFailureRc rc, hqueue, context, args, rfl, by rw [hrc]⟩
  | receive context args =>
      refine Or.inr ⟨by simp, ?_⟩
      rcases fake.receive_cases context args with ⟨_, rc, hqueue, hreply⟩ | hsame | ⟨hkept, _⟩
      · exact Or.inl ⟨.failureRc rc, hqueue, context, args, rfl, by rw [hreply]; rfl⟩
      · exact Or.inr (by rw [hsame])
      · exact Or.inr hkept
  | finishReceive behaviour pending hreceiving =>
      refine Or.inr ⟨by simp, ?_⟩
      by_cases hrefused : pending.Refused behaviour
      · exact Or.inr (by rw [finishReceive_refused hrefused])
      obtain ⟨n, memory, bytes, hsize, hresponse, hbytes, hfits⟩ :=
        PendingReceive.of_not_refused hrefused
      obtain ⟨_, entry, rest, hqueue, hsource⟩ := hhead pending hreceiving
      have hrun := finishReceive_delivers hqueue hsize hresponse hbytes hfits
      have hover : FakeTctiStep.HandsOver ⟨fake, .finishReceive behaviour,
          .received (fake.finishReceive pending behaviour).1,
          (fake.finishReceive pending behaviour).2⟩ bytes :=
        ⟨pending, n, memory, hreceiving, hsize, hresponse, hfits, by rw [hrun]⟩
      refine Or.inl ⟨entry, by rw [hrun]; exact hqueue, ?_⟩
      cases entry with
      | responseBytes scripted =>
          rw [← Option.some.inj hsource] at hbytes
          obtain rfl := Option.some.inj hbytes
          exact ⟨⟨behaviour, rfl⟩, hover⟩
      | responseFactory factory =>
          rw [← Option.some.inj hsource] at hbytes
          exact ⟨behaviour, bytes, rfl, hbytes, hover⟩
      | failureRc rc => cases hsource
      | transmitFailureRc rc => cases hsource
  | finalize context =>
      refine Or.inr ⟨by simp, Or.inr ?_⟩
      cases context <;> rfl

/-- The head is held over every step. -/
theorem step_holdsHead (hhead : fake.HoldsHead) (h : fake.step action = some (reply, next)) :
    next.HoldsHead := by
  cases steps_of_step h with
  | push entry =>
      -- the entry lands behind the head
      intro pending hpending
      obtain ⟨howned, first, rest, hqueue, hsource⟩ := hhead pending hpending
      exact ⟨howned, first, rest ++ [entry], congrArg (· ++ [entry]) hqueue, hsource⟩
  | transmit context args hidle =>
      exact holdsHead_of_none ((fake.transmit_cases context args).1.trans hidle)
  | receive context args hidle =>
      rcases fake.receive_cases context args with ⟨hsame, _⟩ | hsame | ⟨_, hholds⟩
      · exact holdsHead_of_none (hsame.trans hidle)
      · rw [hsame]
        exact hhead
      · exact hholds
  | finishReceive behaviour pending =>
      obtain ⟨queue, hrun⟩ := fake.finishReceive_frame pending behaviour
      rw [hrun]
      exact holdsHead_of_none rfl
  | finalize context hidle =>
      refine holdsHead_of_none ?_
      cases context with
      | null => exact hidle
      | handle => exact hidle

/-! ### Transmitted commands and the owner -/

end FakeTcti

/-- The command of a transmit that was accepted: it found an owner and a command buffer. -/
def FakeTctiStep.acceptedCommand (step : FakeTctiStep φ) : Option (List UInt8) :=
  match step.action with
  | .transmit context args =>
      if step.before.ownerFrom context && !args.dangling then some args.observedCommand else none
  | _ => none

/-- The action finalizes the handle itself and not a copy of it. -/
def FakeTctiAction.finalizesHandle : FakeTctiAction φ → Bool
  | .finalize .handle => true
  | _ => false

/-- The entry that the action pushes. -/
def FakeTctiAction.pushed : FakeTctiAction φ → Option (QueuedResult φ)
  | .push entry => some entry
  | _ => none

/-- Only a push pushes. -/
theorem FakeTctiAction.pushed_of_ne {action : FakeTctiAction φ}
    (h : ∀ entry, action ≠ .push entry) : action.pushed = none := by
  cases action with
  | push entry => exact absurd rfl (h entry)
  | _ => rfl

namespace FakeTcti

variable {fake : FakeTcti φ} {action : FakeTctiAction φ} {reply : FakeTctiReply}
  {next : FakeTcti φ}

/-- A step stores the command of an accepted transmit, and counts it.  The owner is lost
when the handle is finalized. -/
theorem step_ledger (h : fake.step action = some (reply, next)) :
    let accepted := (FakeTctiStep.acceptedCommand ⟨fake, action, reply, next⟩).toList
    next.transmittedCommands = fake.transmittedCommands ++ accepted ∧
      next.transmitsObserved = fake.transmitsObserved + accepted.length ∧
      next.owned = (fake.owned && !action.finalizesHandle) := by
  cases steps_of_step h with
  | push entry => exact ⟨(List.append_nil _).symm, rfl, (Bool.and_true _).symm⟩
  | transmit context args =>
      obtain ⟨queue, hrun⟩ := fake.transmit_frame context args
      rw [hrun]
      cases haccepted : fake.ownerFrom context && !args.dangling <;>
        simp [FakeTctiStep.acceptedCommand, FakeTctiAction.finalizesHandle, haccepted]
  | receive context args =>
      obtain ⟨queue, receiving, hrun⟩ := fake.receive_frame context args
      rw [hrun]
      exact ⟨(List.append_nil _).symm, rfl, (Bool.and_true _).symm⟩
  | finishReceive behaviour pending =>
      obtain ⟨queue, hrun⟩ := fake.finishReceive_frame pending behaviour
      rw [hrun]
      exact ⟨(List.append_nil _).symm, rfl, (Bool.and_true _).symm⟩
  | finalize context =>
      cases context with
      | null => exact ⟨(List.append_nil _).symm, rfl, (Bool.and_true _).symm⟩
      | handle => exact ⟨(List.append_nil _).symm, rfl, (Bool.and_false _).symm⟩

/-- Once the handle is finalized no context is recognised any more. -/
theorem ownerFrom_of_not_owned (howned : fake.owned = false) (context : ContextPointer) :
    fake.ownerFrom context = false := by
  cases context with
  | null => rfl
  | handle => exact howned

/-- A call on a fake without an owner takes nothing off. -/
theorem step_not_owned (hhead : fake.HoldsHead) (howned : fake.owned = false)
    (h : fake.step action = some (reply, next)) (hpush : ∀ entry, action ≠ .push entry) :
    next.queue = fake.queue := by
  cases steps_of_step h with
  | push entry => exact absurd rfl (hpush entry)
  | transmit context args => simp [transmit, ownerFrom_of_not_owned howned]
  | receive context args => simp [receive, ownerFrom_of_not_owned howned]
  | finishReceive behaviour pending hreceiving =>
      rw [(hhead pending hreceiving).1] at howned
      cases howned
  | finalize context =>
      cases context with
      | null => rfl
      | handle => rfl

/-! ## Runs -/

/-- A run starts with its first step. -/
theorem run_cons {rest : List (FakeTctiAction φ)} {steps : List (FakeTctiStep φ)}
    {final : FakeTcti φ} (h : fake.run (action :: rest) = some (steps, final)) :
    ∃ reply next later, fake.step action = some (reply, next) ∧
      next.run rest = some (later, final) ∧ steps = ⟨fake, action, reply, next⟩ :: later := by
  simp only [run, Option.bind_eq_bind, Option.bind_eq_some_iff, Prod.exists, Option.pure_def,
    Option.some.injEq, Prod.mk.injEq] at h
  obtain ⟨reply, next, hstep, later, final', hrun, rfl, rfl⟩ := h
  exact ⟨reply, next, later, hstep, hrun, rfl⟩

/-- The head is held in every state that is reached. -/
theorem run_holdsHead {actions : List (FakeTctiAction φ)} {steps : List (FakeTctiStep φ)}
    {final : FakeTcti φ} (hhead : fake.HoldsHead) (h : fake.run actions = some (steps, final)) :
    final.HoldsHead ∧ ∀ step ∈ steps, step.before.HoldsHead ∧
      step.before.step step.action = some (step.reply, step.after) := by
  induction actions generalizing fake steps with
  | nil =>
      cases h
      exact ⟨hhead, fun step hmem => absurd hmem List.not_mem_nil⟩
  | cons action rest ih =>
      obtain ⟨reply, next, later, hstep, hrun, rfl⟩ := run_cons h
      obtain ⟨hfinal, hlater⟩ := ih (step_holdsHead hhead hstep) hrun
      exact ⟨hfinal, List.forall_mem_cons.mpr ⟨⟨hhead, hstep⟩, hlater⟩⟩

/-- The queue has a history of pushes and deliveries. -/
theorem run_history {actions : List (FakeTctiAction φ)} {steps : List (FakeTctiStep φ)}
    {final : FakeTcti φ} (hhead : fake.HoldsHead) (h : fake.run actions = some (steps, final)) :
    ∃ effects, Fifo.History fake.queue effects final.queue ∧
      Fifo.enqueued effects = actions.filterMap FakeTctiAction.pushed ∧
      List.Forall₂ FakeTctiStep.TakesOff (steps.filter FakeTctiStep.consumes)
        (Fifo.dequeued effects) := by
  induction actions generalizing fake steps with
  | nil =>
      cases h
      exact ⟨[], .nil _, rfl, .nil⟩
  | cons action rest ih =>
      obtain ⟨reply, next, later, hstep, hrun, rfl⟩ := run_cons h
      obtain ⟨effects, hhistory, hpushed, hdelivered⟩ := ih (step_holdsHead hhead hstep) hrun
      rcases step_cases hhead hstep with
        ⟨entry, rfl, hqueue⟩ | ⟨hpush, ⟨entry, htakes⟩ | hqueue⟩
      · have hkept : FakeTctiStep.consumes ⟨fake, .push entry, reply, next⟩ = false :=
          FakeTctiStep.not_consumes_of_append hqueue
        refine ⟨.enqueue entry :: effects, .cons hqueue hhistory, ?_, ?_⟩
        · exact congrArg (entry :: ·) hpushed
        · rwa [List.filter_cons_of_neg (by simp [hkept])]
      · have hnone : action.pushed = none := FakeTctiAction.pushed_of_ne hpush
        refine ⟨.dequeue entry :: effects, .cons htakes.1 hhistory, ?_, ?_⟩
        · rw [List.filterMap_cons_none hnone, ← hpushed]
          rfl
        · rw [List.filter_cons_of_pos (FakeTctiStep.consumes_of_takesOff htakes)]
          exact .cons htakes hdelivered
      · have hnone : action.pushed = none := FakeTctiAction.pushed_of_ne hpush
        have hkept : FakeTctiStep.consumes ⟨fake, action, reply, next⟩ = false :=
          FakeTctiStep.not_consumes_of_eq hqueue
        refine ⟨.keep :: effects, .cons hqueue hhistory, ?_, ?_⟩
        · rw [List.filterMap_cons_none hnone, ← hpushed]
          rfl
        · rwa [List.filter_cons_of_neg (by simp [hkept])]

/-- The commands and the owner over a run. -/
theorem run_ledger {actions : List (FakeTctiAction φ)} {steps : List (FakeTctiStep φ)}
    {final : FakeTcti φ} (h : fake.run actions = some (steps, final)) :
    final.transmittedCommands =
        fake.transmittedCommands ++ steps.filterMap FakeTctiStep.acceptedCommand ∧
      final.transmitsObserved =
        fake.transmitsObserved + (steps.filterMap FakeTctiStep.acceptedCommand).length ∧
      final.owned = (fake.owned && !actions.any FakeTctiAction.finalizesHandle) := by
  induction actions generalizing fake steps with
  | nil =>
      cases h
      exact ⟨(List.append_nil _).symm, rfl, (Bool.and_true _).symm⟩
  | cons action rest ih =>
      obtain ⟨reply, next, later, hstep, hrun, rfl⟩ := run_cons h
      obtain ⟨hcommands, hobserved, howned⟩ := step_ledger hstep
      obtain ⟨hcommands', hobserved', howned'⟩ := ih hrun
      have haccepted :
          (⟨fake, action, reply, next⟩ :: later).filterMap FakeTctiStep.acceptedCommand =
            (FakeTctiStep.acceptedCommand ⟨fake, action, reply, next⟩).toList ++
              later.filterMap FakeTctiStep.acceptedCommand := by
        rw [List.filterMap_cons]
        cases FakeTctiStep.acceptedCommand ⟨fake, action, reply, next⟩ <;> rfl
      rw [haccepted]
      refine ⟨?_, ?_, ?_⟩
      · rw [hcommands', hcommands, List.append_assoc]
      · rw [hobserved', hobserved, List.length_append, Nat.add_assoc]
      · rw [howned', howned, List.any_cons, Bool.not_or, Bool.and_assoc]

/-- A step that shortens the queue delivers its head. -/
theorem takesOff_of_consumes {step : FakeTctiStep φ}
    (h : step.before.HoldsHead ∧ step.before.step step.action = some (step.reply, step.after))
    (hconsumes : step.consumes = true) : ∃ entry, step.TakesOff entry := by
  rcases step_cases h.1 h.2 with ⟨entry, _, hqueue⟩ | ⟨_, htakes | hqueue⟩
  · rw [FakeTctiStep.not_consumes_of_append hqueue] at hconsumes
    cases hconsumes
  · exact htakes
  · rw [FakeTctiStep.not_consumes_of_eq hqueue] at hconsumes
    cases hconsumes

/-- A call that has an entry to take off takes it off. -/
theorem consumes_of_due (hhead : fake.HoldsHead) (h : fake.step action = some (reply, next))
    (hdue : FakeTctiStep.Due ⟨fake, action, reply, next⟩) :
    FakeTctiStep.consumes ⟨fake, action, reply, next⟩ = true := by
  suffices hshorter : ∃ entry, fake.queue = entry :: next.queue by
    obtain ⟨entry, hqueue⟩ := hshorter
    simp [FakeTctiStep.consumes, pendingResponses, hqueue]
  cases steps_of_step h with
  | push entry => exact hdue.elim
  | transmit context args =>
      obtain ⟨howner, hsent, rc, rest, hqueue⟩ := hdue
      simp only at howner hsent hqueue
      exact ⟨.transmitFailureRc rc, by simp [transmit, howner, hsent, observeTransmit, hqueue]⟩
  | receive context args =>
      obtain ⟨howner, rc, rest, hqueue⟩ := hdue
      simp only at howner hqueue
      exact ⟨.failureRc rc, by simp [receive, howner, peekNext, hqueue]⟩
  | finishReceive behaviour pending hreceiving =>
      obtain ⟨pending', hreceiving', hrefused⟩ := hdue
      obtain rfl : pending' = pending := Option.some.inj (hreceiving'.symm.trans hreceiving)
      obtain ⟨n, memory, bytes, hsize, hresponse, hbytes, hfits⟩ :=
        PendingReceive.of_not_refused hrefused
      obtain ⟨_, entry, rest, hqueue, _⟩ := hhead pending' hreceiving
      refine ⟨entry, ?_⟩
      rw [finishReceive_delivers hqueue hsize hresponse hbytes hfits]
      exact hqueue
  | finalize context => exact hdue.elim

/-- And no other call does. -/
theorem due_of_consumes (h : fake.step action = some (reply, next))
    (hconsumes : FakeTctiStep.consumes ⟨fake, action, reply, next⟩ = true) :
    FakeTctiStep.Due ⟨fake, action, reply, next⟩ := by
  have hchanged : next.queue ≠ fake.queue := fun heq => by
    rw [FakeTctiStep.not_consumes_of_eq heq] at hconsumes
    cases hconsumes
  cases steps_of_step h with
  | push entry =>
      have hqueue : (fake.pushBack entry).queue = fake.queue ++ [entry] := rfl
      have hlonger : FakeTctiStep.consumes ⟨fake, .push entry, .done, fake.pushBack entry⟩ =
          false := FakeTctiStep.not_consumes_of_append hqueue
      rw [hlonger] at hconsumes
      cases hconsumes
  | transmit context args =>
      obtain ⟨rc, hqueue, _⟩ := (fake.transmit_cases context args).2.resolve_left hchanged
      refine ⟨?_, ?_, rc, _, hqueue⟩
      · by_contra howner
        have hnone : fake.ownerFrom context = false := by simpa using howner
        simp [transmit, hnone] at hchanged
      · by_contra hsent
        have hdangling : args.dangling = true := by simpa using hsent
        simp [transmit, hdangling] at hchanged
  | receive context args =>
      rcases fake.receive_cases context args with ⟨_, rc, hqueue, _⟩ | hsame | ⟨hkept, _⟩
      · refine ⟨?_, rc, _, hqueue⟩
        by_contra howner
        have hnone : fake.ownerFrom context = false := by simpa using howner
        simp [receive, hnone] at hchanged
      · exact absurd (congrArg queue hsame) hchanged
      · exact absurd hkept hchanged
  | finishReceive behaviour pending hreceiving =>
      refine ⟨pending, hreceiving, fun hrefused => hchanged ?_⟩
      rw [finishReceive_refused hrefused]
  | finalize context => cases context <;> exact absurd rfl hchanged

/-- Bytes are handed over by a receive that is not refused them. -/
theorem due_of_handsOver (h : fake.step action = some (reply, next)) {bytes : List UInt8}
    (hover : FakeTctiStep.HandsOver ⟨fake, action, reply, next⟩ bytes) :
    FakeTctiStep.Due ⟨fake, action, reply, next⟩ := by
  obtain ⟨pending, n, memory, hreceiving, _, hresponse, _, hreply⟩ := hover
  simp only at hreceiving hreply
  cases steps_of_step h with
  | push entry => cases hreply
  | transmit context args => cases hreply
  | receive context args hidle =>
      rw [hidle] at hreceiving
      cases hreceiving
  | finishReceive behaviour pending' hreceiving' =>
      refine ⟨pending', hreceiving', fun hrefused => ?_⟩
      obtain rfl : pending = pending' := Option.some.inj (hreceiving.symm.trans hreceiving')
      have hrc := congrArg ReceiveReply.rc (FakeTctiReply.received.inj hreply)
      exact finishReceive_refused_rc hrefused (by simp [hresponse]) hrc
  | finalize context => cases hreply

/-- The steps of a run are those of its actions. -/
theorem run_actions {actions : List (FakeTctiAction φ)} {steps : List (FakeTctiStep φ)}
    {final : FakeTcti φ} (h : fake.run actions = some (steps, final)) :
    steps.map FakeTctiStep.action = actions := by
  induction actions generalizing fake steps with
  | nil =>
      cases h
      rfl
  | cons action rest ih =>
      obtain ⟨reply, next, later, _, hrun, rfl⟩ := run_cons h
      rw [List.map_cons, ih hrun]

/-- A run is taken up to any of its steps, and on from there. -/
theorem run_split {actions : List (FakeTctiAction φ)} {first later : List (FakeTctiStep φ)}
    {final : FakeTcti φ} (h : fake.run actions = some (first ++ later, final)) :
    ∃ middle, fake.run (first.map FakeTctiStep.action) = some (first, middle) ∧
      middle.run (later.map FakeTctiStep.action) = some (later, final) := by
  induction first generalizing fake actions with
  | nil =>
      have hactions : later.map FakeTctiStep.action = actions := run_actions h
      exact ⟨fake, rfl, by rw [hactions]; exact h⟩
  | cons step first ih =>
      rw [← run_actions h] at h
      obtain ⟨reply, next, taken, hstep, hrun, hsteps⟩ := run_cons h
      obtain ⟨heq, rfl⟩ := List.cons.inj hsteps
      obtain ⟨middle, hfirst, hlater⟩ := ih hrun
      refine ⟨middle, ?_, hlater⟩
      rw [List.map_cons, run, hstep]
      simp [hfirst, ← heq]

/-- Once the handle is finalized only pushes change the queue. -/
theorem run_finalized {actions : List (FakeTctiAction φ)} {first later : List (FakeTctiStep φ)}
    {step : FakeTctiStep φ} {final : FakeTcti φ} (hhead : fake.HoldsHead)
    (h : fake.run actions = some (first ++ step :: later, final))
    (hfinalized : ∃ earlier ∈ first, earlier.action = .finalize .handle)
    (hpush : ∀ entry, step.action ≠ .push entry) : step.after.queue = step.before.queue := by
  obtain ⟨middle, hfirst, hlater⟩ := run_split h
  obtain ⟨reply, next, taken, hstep, _, hsteps⟩ := run_cons hlater
  obtain ⟨heq, _⟩ := List.cons.inj hsteps
  have howned : middle.owned = false := by
    obtain ⟨earlier, hmem, haction⟩ := hfinalized
    have hany : (first.map FakeTctiStep.action).any FakeTctiAction.finalizesHandle = true :=
      List.any_eq_true.mpr ⟨_, List.mem_map_of_mem hmem, by rw [haction]; rfl⟩
    rw [(run_ledger hfirst).2.2, hany]
    exact Bool.and_false _
  have hkept := step_not_owned (run_holdsHead hhead hfirst).1 howned hstep hpush
  rw [heq]
  exact hkept

end FakeTcti

/-- A response, a factory and a failure, where each is pushed while the one before is on
its way to the caller; the factory answers with the command and one byte more. -/
def interleavedPushes : List (FakeTctiAction Unit) :=
  [.push (.responseBytes [1, 2]),
    .transmit .handle ⟨1, some [7], by rintro memory ⟨⟩; decide⟩,
    .receive .handle ⟨some 4, some [0, 0, 0, 0], by rintro n memory ⟨⟩ ⟨⟩; decide⟩,
    .push (.responseFactory ()),
    .finishReceive fun _ _ => none,
    .transmit .handle ⟨1, some [8], by rintro memory ⟨⟩; decide⟩,
    .receive .handle ⟨some 4, some [0, 0, 0, 0], by rintro n memory ⟨⟩ ⟨⟩; decide⟩,
    .push (.failureRc tpm2RcInitialize),
    .finishReceive fun _ command => some (command ++ [3]),
    .receive .handle ⟨some 4, some [0, 0, 0, 0], by rintro n memory ⟨⟩ ⟨⟩; decide⟩]

end Tpmkit
