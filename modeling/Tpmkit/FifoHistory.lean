import Mathlib.Tactic.Common

/-!
# Histories of a queue

A library for queues that are only appended to at the end and taken from at the
front.  Whatever the interleaving, what was put in is what was taken out
followed by what is still there.
-/

namespace Fifo

variable {α : Type}

/-- What one step does to a queue. -/
inductive Effect (α : Type) where
  | keep
  | enqueue (x : α)
  | dequeue (x : α)

namespace Effect

/-- The step leads from the one queue to the other. -/
def Acts : Effect α → List α → List α → Prop
  | keep, before, after => after = before
  | enqueue x, before, after => after = before ++ [x]
  | dequeue x, before, after => before = x :: after

/-- What the effect adds. -/
def enqueued? : Effect α → Option α
  | enqueue x => some x
  | _ => none

/-- What the effect takes off. -/
def dequeued? : Effect α → Option α
  | dequeue x => some x
  | _ => none

end Effect

/-- What some steps put in, in order. -/
def enqueued (effects : List (Effect α)) : List α := effects.filterMap Effect.enqueued?

/-- What some steps take out, in order. -/
def dequeued (effects : List (Effect α)) : List α := effects.filterMap Effect.dequeued?

/-- The steps lead from the one queue to the other. -/
inductive History : List α → List (Effect α) → List α → Prop
  | nil (queue : List α) : History queue [] queue
  | cons {effect : Effect α} {effects : List (Effect α)} {before middle after : List α}
      (head : effect.Acts before middle) (tail : History middle effects after) :
      History before (effect :: effects) after

/-- **Nothing is lost, doubled or overtaken.** -/
theorem History.balance {effects : List (Effect α)} {before after : List α}
    (h : History before effects after) :
    before ++ enqueued effects = dequeued effects ++ after := by
  induction h with
  | nil queue => exact List.append_nil queue
  | @cons effect effects before middle after head tail ih =>
      cases effect with
      | keep =>
          obtain rfl : middle = before := head
          exact ih
      | enqueue x =>
          obtain rfl : middle = before ++ [x] := head
          rw [List.append_assoc] at ih
          exact ih
      | dequeue x =>
          obtain rfl : before = x :: middle := head
          exact congrArg (x :: ·) ih

/-- What was taken out of a queue that started empty is what was put in first. -/
theorem History.dequeued_eq {effects : List (Effect α)} {after : List α}
    (h : History [] effects after) :
    dequeued effects = (enqueued effects).take (dequeued effects).length := by
  have hbalance : enqueued effects = dequeued effects ++ after := h.balance
  rw [hbalance, List.take_left]

/-- What is left in it is the rest. -/
theorem History.after_eq {effects : List (Effect α)} {after : List α}
    (h : History [] effects after) :
    after = (enqueued effects).drop (dequeued effects).length := by
  have hbalance : enqueued effects = dequeued effects ++ after := h.balance
  rw [hbalance, List.drop_left]

end Fifo
