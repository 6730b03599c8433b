import Tpmkit.LockedSections
import Tpmkit.LogRecords

/-!
# The recording logger

`recording_logger.cpp`, and threads that share one.  `log` makes its record before it
takes the mutex; what happens under the mutex is one `emplace_back`, one `clear`, or a
copy of the records one by one.
-/

namespace Tpmkit.Testing

open ByteStrings LockedSections

/-- `make_record`. -/
def makeRecord (level : LogLevel) (message : ByteString) (fields : List LogField) : LogRecord :=
  fields.foldl (fun entry field => { entry with fields := entry.fields ++ [⟨field.key, field.value⟩] })
    ⟨level, message, []⟩

/-- A record holds what the call was given. -/
theorem makeRecord_eq (level : LogLevel) (message : ByteString) (fields : List LogField) :
    makeRecord level message fields = ⟨level, message, fields⟩ := by
  have hfold : ∀ copied, fields.foldl
      (fun entry field => { entry with fields := entry.fields ++ [⟨field.key, field.value⟩] })
      (⟨level, message, copied⟩ : LogRecord) = ⟨level, message, copied ++ fields⟩ := by
    induction fields with
    | nil => exact fun copied => by rw [List.append_nil]; rfl
    | cons field fields ih =>
        intro copied
        rw [List.foldl_cons, ih, List.append_assoc]
        rfl
  exact hfold []

/-! ## Threads -/

/-- What threads share of a `recording_logger`: its records, and where they put the
snapshots that they take. -/
inductive RecorderCell (θ : Type) where
  | records
  | snapshots (owner : θ)
deriving DecidableEq

/-- What is in a cell. -/
def RecorderCell.Content {θ : Type} : RecorderCell θ → Type
  | .records => List LogRecord
  | .snapshots _ => List (List LogRecord)

/-- A `recording_logger` and the snapshots taken of it. -/
abbrev Recorder (θ : Type) : Type := ∀ cell : RecorderCell θ, cell.Content

/-- What a thread does with a `recording_logger`. -/
inductive RecorderOp (θ : Type) where
  | log (level : LogLevel) (message : ByteString) (fields : List LogField)
  | clear
  | snapshot (owner : θ)

namespace Recorder

variable {θ : Type}

/-- `records_`. -/
def records (m : Recorder θ) : List LogRecord := m .records

/-- The snapshots that a thread put away. -/
def snapshots (m : Recorder θ) (owner : θ) : List (List LogRecord) := m (.snapshots owner)

/-- A new `recording_logger`. -/
def empty : Recorder θ
  | .records => ([] : List LogRecord)
  | .snapshots _ => ([] : List (List LogRecord))

variable [DecidableEq θ]

/-- The records are replaced. -/
def setRecords (f : List LogRecord → List LogRecord) (m : Recorder θ) : Recorder θ :=
  Function.update m .records (f m.records)

/-- The snapshots of one thread are replaced. -/
def setSnapshots (owner : θ) (f : List (List LogRecord) → List (List LogRecord))
    (m : Recorder θ) : Recorder θ :=
  Function.update m (.snapshots owner) (f (m.snapshots owner))

@[simp] theorem setRecords_records (f : List LogRecord → List LogRecord) (m : Recorder θ) :
    (m.setRecords f).records = f m.records :=
  Function.update_self (β := RecorderCell.Content) .records (f m.records) m

@[simp] theorem setRecords_snapshots (f : List LogRecord → List LogRecord) (m : Recorder θ)
    (owner : θ) : (m.setRecords f).snapshots owner = m.snapshots owner := by
  have hcell : (.snapshots owner : RecorderCell θ) ≠ .records := nofun
  exact Function.update_of_ne (β := RecorderCell.Content) hcell (f m.records) m

@[simp] theorem setSnapshots_records (owner : θ)
    (f : List (List LogRecord) → List (List LogRecord)) (m : Recorder θ) :
    (m.setSnapshots owner f).records = m.records := by
  have hcell : (.records : RecorderCell θ) ≠ .snapshots owner := nofun
  exact Function.update_of_ne (β := RecorderCell.Content) hcell (f (m.snapshots owner)) m

/-- The snapshots of the other threads stay. -/
theorem setSnapshots_snapshots (owner owner' : θ)
    (f : List (List LogRecord) → List (List LogRecord)) (m : Recorder θ) :
    (m.setSnapshots owner f).snapshots owner' =
      if owner' = owner then f (m.snapshots owner') else m.snapshots owner' := by
  by_cases howner : owner' = owner
  · subst howner
    rw [if_pos rfl]
    exact Function.update_self ..
  · rw [if_neg howner]
    exact Function.update_of_ne (fun heq => howner (RecorderCell.snapshots.inj heq)) ..

/-- Two changes of the same snapshots make one. -/
@[simp] theorem setSnapshots_setSnapshots (owner : θ)
    (f g : List (List LogRecord) → List (List LogRecord)) (m : Recorder θ) :
    (m.setSnapshots owner f).setSnapshots owner g = m.setSnapshots owner fun x => g (f x) := by
  rw [setSnapshots, setSnapshots_snapshots, if_pos rfl]
  exact Function.update_idem ..

end Recorder

namespace RecorderOp

variable {θ : Type} [DecidableEq θ]

/-- One element of `return records_`: it goes to the copy that was begun last. -/
def copyRecord (owner : θ) (k : Nat) (m : Recorder θ) : Recorder θ :=
  m.setSnapshots owner fun copies =>
    copies.dropLast ++ [copies.getLastD [] ++ m.records[k]?.toList]

/-- What an operation does while it holds the mutex. -/
def code : RecorderOp θ → Code (Recorder θ)
  | .log level message fields =>
    .act (.setRecords (· ++ [makeRecord level message fields])) fun _ => .done
  | .clear => .act (.setRecords fun _ => []) fun _ => .done
  | .snapshot owner =>
    .act (.setSnapshots owner (· ++ [[]])) fun m =>
      .forEach (List.range m.records.length) (copyRecord owner) .done

/-- An operation at once. -/
def apply (m : Recorder θ) : RecorderOp θ → Recorder θ
  | .log level message fields => m.setRecords (· ++ [⟨level, message, fields⟩])
  | .clear => m.setRecords fun _ => []
  | .snapshot owner => m.setSnapshots owner (· ++ [m.records])

/-- The first records are copied, one after the other. -/
theorem foldl_copyRecord (owner : θ) (n : Nat) (m : Recorder θ) :
    (List.range n).foldl (fun m k => copyRecord owner k m) (m.setSnapshots owner (· ++ [[]])) =
      m.setSnapshots owner (· ++ [m.records.take n]) := by
  induction n with
  | zero => simp
  | succ n ih =>
      rw [List.range_succ, List.foldl_append, ih, List.foldl_cons, List.foldl_nil, copyRecord,
        Recorder.setSnapshots_setSnapshots]
      simp [List.take_add_one]

/-- **The steps of an operation do what the operation does.** -/
theorem run_code (op : RecorderOp θ) (m : Recorder θ) : op.code.run m = op.apply m := by
  cases op with
  | log level message fields => simp [code, apply, Code.run, makeRecord_eq]
  | clear => rfl
  | snapshot owner =>
      simp [code, apply, Code.run, Code.run_forEach, foldl_copyRecord]

/-! ## What is recorded -/

/-- The record of a call of `log`. -/
def record? : RecorderOp θ → Option LogRecord
  | .log level message fields => some ⟨level, message, fields⟩
  | _ => none

/-- Anything but `clear`. -/
def keeps : RecorderOp θ → Bool
  | .clear => false
  | _ => true

/-- The records of the calls of `log` since the last `clear`. -/
def sinceClear (ops : List (RecorderOp θ)) : List LogRecord :=
  (ops.reverse.takeWhile keeps).reverse.filterMap record?

/-- What each `snapshot` of a thread is to return, in order. -/
def snapshotsOf (owner : θ) (ops : List (RecorderOp θ)) : List (List LogRecord) :=
  ops.inits.filterMap fun past =>
    match past.getLast? with
    | some (.snapshot owner') => if owner' = owner then some (sinceClear past) else none
    | _ => none

omit [DecidableEq θ] in
/-- A clear empties what was kept, and a log adds its record. -/
theorem sinceClear_append_singleton (ops : List (RecorderOp θ)) (op : RecorderOp θ) :
    sinceClear (ops ++ [op]) = if op.keeps then sinceClear ops ++ op.record?.toList else [] := by
  unfold sinceClear
  rw [List.reverse_append, List.reverse_singleton, List.singleton_append, List.takeWhile_cons]
  split
  · rw [List.reverse_cons, List.filterMap_append]
    cases hrecord : op.record? <;> simp [hrecord]
  · rfl

/-- A snapshot sees what is kept when it is taken. -/
theorem snapshotsOf_append_singleton (owner : θ) (ops : List (RecorderOp θ)) (op : RecorderOp θ) :
    snapshotsOf owner (ops ++ [op]) = snapshotsOf owner ops ++
      (match op with
        | .snapshot owner' => if owner' = owner then [sinceClear (ops ++ [op])] else []
        | _ => []) := by
  rw [snapshotsOf, List.inits_append]
  simp only [List.inits, List.tail_cons, List.map_cons, List.map_nil, List.filterMap_append]
  refine congrArg _ ?_
  cases op with
  | log level message fields => simp
  | clear => simp
  | snapshot owner' => by_cases howner : owner' = owner <;> simp [howner]

/-- Operations one after another. -/
def serial (m : Recorder θ) (ops : List (RecorderOp θ)) : Recorder θ :=
  ops.foldl (fun m op => op.apply m) m

/-- The last operation is carried out last. -/
theorem serial_append_singleton (m : Recorder θ) (ops : List (RecorderOp θ)) (op : RecorderOp θ) :
    serial m (ops ++ [op]) = op.apply (serial m ops) := by
  rw [serial, List.foldl_append]
  rfl

/-- One after another, operations leave the records since the last `clear`, and each
snapshot those at its time. -/
theorem serial_recorded (ops : List (RecorderOp θ)) :
    (serial Recorder.empty ops).records = sinceClear ops ∧
      ∀ owner, (serial Recorder.empty ops).snapshots owner = snapshotsOf owner ops := by
  induction ops using List.reverseRecOn with
  | nil => exact ⟨rfl, fun _ => rfl⟩
  | append_singleton ops op ih =>
      obtain ⟨hrecords, hsnapshots⟩ := ih
      simp only [serial_append_singleton, sinceClear_append_singleton,
        snapshotsOf_append_singleton]
      cases op with
      | log level message fields =>
          exact ⟨by simp [apply, hrecords, keeps, record?], fun owner => by simp [apply, hsnapshots]⟩
      | clear => exact ⟨by simp [apply, keeps], fun owner => by simp [apply, hsnapshots]⟩
      | snapshot owner' =>
          refine ⟨by simp [apply, hrecords, keeps, record?], fun owner => ?_⟩
          simp only [apply, Recorder.setSnapshots_snapshots, hsnapshots, hrecords]
          by_cases howner : owner = owner'
          · simp [howner, keeps, record?]
          · simp [howner, Ne.symm howner]

/-- The operations, under the mutex of the logger. -/
def discipline : Discipline Unit (RecorderOp θ) (@RecorderCell.Content θ) := .oneLock code

/-- The operations one after another, with the threads left out. -/
theorem discipline_serial {κ : Type} (m : Recorder θ) (order : List (κ × RecorderOp θ)) :
    discipline.serial m order = serial m (order.map Prod.snd) := by
  rw [serial, List.foldl_map]
  exact List.foldl_ext _ _ _ fun m x _ => run_code x.2 m

end RecorderOp

variable {θ : Type} [DecidableEq θ]

/-- **Nothing recorded is lost, doubled or moved.**  However the steps of the threads come
between each other, the calls take the mutex in the program order of each thread; and when
no call is under way the logger holds the records of the calls of `log` since the last
`clear`, one for each and in that order, and each snapshot holds what the logger held when
it was taken. -/
theorem recorded_in_order (programs : θ → List (RecorderOp θ))
    (w : System θ (RecorderOp θ) (@RecorderCell.Content θ))
    (hreach : RecorderOp.discipline.Reaches (Discipline.initial Recorder.empty programs) w) :
    (∀ t, (w.order.filterMap fun x => if x.1 = t then some x.2 else none) ++
        (w.threads t).todo = programs t) ∧
      ((∀ t, (w.threads t).current = none) →
        Recorder.records w.memory = RecorderOp.sinceClear (w.order.map Prod.snd) ∧
        ∀ owner, Recorder.snapshots w.memory owner =
          RecorderOp.snapshotsOf owner (w.order.map Prod.snd)) ∧
      ((∃ t, (w.threads t).todo ≠ [] ∨ (w.threads t).current ≠ none) →
        ∃ w', RecorderOp.discipline.Step w w') := by
  have hconsistent := Discipline.consistent_of_reaches (Discipline.oneLock_lawful _)
    (Discipline.oneLock_separate _ _) hreach
  refine ⟨hconsistent.programs, fun hidle => ?_, Discipline.exists_step w⟩
  have hmemory : w.memory = RecorderOp.serial Recorder.empty (w.order.map Prod.snd) := by
    rw [hconsistent.memory_eq hidle]
    exact RecorderOp.discipline_serial ..
  rw [hmemory]
  exact RecorderOp.serial_recorded _

/-- One thread logs and another one takes a snapshot. -/
def loggedThenSeen : Bool → List (RecorderOp Bool)
  | false => [.log .info (ascii "a") []]
  | true => [.snapshot true]

/-- A snapshot that is taken after the log sees its record. -/
theorem recorded_in_order_seen :
    ∃ w, RecorderOp.discipline.Reaches (Discipline.initial Recorder.empty loggedThenSeen) w ∧
      Recorder.records w.memory = [⟨.info, ascii "a", []⟩] ∧
      Recorder.snapshots w.memory true = [[⟨.info, ascii "a", []⟩]] := by
  have hlog := Discipline.reaches_next (D := RecorderOp.discipline) (t := false)
    (w := Discipline.initial Recorder.empty loggedThenSeen) rfl fun _ => rfl
  have hboth := hlog.trans (Discipline.reaches_next (t := true) rfl fun t => by cases t <;> rfl)
  have h := (recorded_in_order loggedThenSeen _ hboth).2.1 fun t => by cases t <;> rfl
  exact ⟨_, hboth, h.1, h.2 true⟩

end Tpmkit.Testing
