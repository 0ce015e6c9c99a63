/-
Computations that report what they do.

A report is the answer of a computation, or the fault that ended it, with the records written on
the way there. Records written before a fault are kept. The answer of a sequence depends on the
answers of its parts alone, never on their records: that is `result_bind`, and it is why a
statement about answers can leave the records out.
-/
import DartDecoders.Fault

set_option autoImplicit false

namespace DartDecoders

/-- How much a record matters, the least first. -/
inductive Level where
  | debug
  | info
  | warning
  | error
  deriving DecidableEq, Repr

/-- The place of a level among the others. -/
def Level.rank : Level → Nat
  | .debug => 0
  | .info => 1
  | .warning => 2
  | .error => 3

/-- The name of a level in the log. -/
def Level.name : Level → String
  | .debug => "DEBUG"
  | .info => "INFO"
  | .warning => "WARNING"
  | .error => "ERROR"

/-- One line of the log. -/
structure LogRecord where
  level : Level
  message : Text
  deriving DecidableEq, Repr

/-- The messages of the records at a level or above, in order. -/
def LogRecord.messagesFrom (level : Level) (log : List LogRecord) : List Text :=
  (log.filter fun record => level.rank ≤ record.level.rank).map (·.message)

/-- The records at a level or above as log text, one line after the other. -/
def LogRecord.textFrom (level : Level) (log : List LogRecord) : Text :=
  (log.filter fun record => level.rank ≤ record.level.rank).flatMap
    fun record => Text.concat [record.level.name, ": ", record.message, "\n"]

/-- An answer or a fault, with the records written on the way. -/
structure Report (α : Type) where
  log : List LogRecord
  result : Except Fault α

namespace Report

variable {α β : Type}

/-- An answer with nothing to report. -/
def answer (a : α) : Report α :=
  ⟨[], .ok a⟩

/-- The second computation after the first, on its answer. -/
def andThen (first : Report α) (next : α → Report β) : Report β :=
  match first.result with
  | .ok a => ⟨first.log ++ (next a).log, (next a).result⟩
  | .error e => ⟨first.log, .error e⟩

instance : Monad Report where
  pure := answer
  bind := andThen

/-- A fault with nothing to report. -/
def fail (e : Fault) : Report α :=
  ⟨[], .error e⟩

/-- One record. -/
def note (level : Level) (message : Text) : Report Unit :=
  ⟨[⟨level, message⟩], .ok ()⟩

/-- Several records in order. -/
def notes (log : List LogRecord) : Report Unit :=
  ⟨log, .ok ()⟩

/-- A computation that reports nothing. -/
def lift (result : Except Fault α) : Report α :=
  ⟨[], result⟩

/-- The computation with a reported error handed over as an answer; other faults go on. -/
def caught (computation : Report α) : Report (Except GenerationError α) :=
  match computation.result with
  | .ok a => ⟨computation.log, .ok (.ok a)⟩
  | .error (.reported e) => ⟨computation.log, .ok (.error e)⟩
  | .error fault => ⟨computation.log, .error fault⟩

/-- A computation that ends after so many of its records because the stack overflows, or goes on as
it is. -/
def cutShort (overflow? : Option Nat) (computation : Report α) : Report α :=
  match overflow? with
  | some n => ⟨computation.log.take n, .error .nestedTooDeep⟩
  | none => computation

/-! ## Laws -/

@[simp] theorem result_pure (a : α) : (pure a : Report α).result = .ok a := rfl

@[simp] theorem log_pure (a : α) : (pure a : Report α).log = [] := rfl

@[simp] theorem result_note (level : Level) (message : Text) :
    (note level message).result = .ok () := rfl

@[simp] theorem result_notes (log : List LogRecord) : (notes log).result = .ok () := rfl

@[simp] theorem result_lift (result : Except Fault α) : (lift result).result = result := rfl

@[simp] theorem result_fail (e : Fault) : (fail e : Report α).result = .error e := rfl

/-- A computation that is cut short fails, and any other as it would. -/
theorem result_cutShort_eq_error_iff {overflow? : Option Nat} {computation : Report α} {f : Fault} :
    (computation.cutShort overflow?).result = .error f
      ↔ (∃ n, overflow? = some n) ∧ f = .nestedTooDeep
        ∨ overflow? = none ∧ computation.result = .error f := by
  cases overflow? <;> simp [cutShort, eq_comm]

/-- Answers do not depend on records. -/
@[simp] theorem result_bind (first : Report α) (next : α → Report β) :
    (first >>= next).result = first.result.bind fun a => (next a).result := by
  show (andThen first next).result = _
  unfold andThen
  cases first.result <;> rfl

private theorem map_id_report (x : Report α) : id <$> x = x := by
  obtain ⟨log, _ | a⟩ := x <;> simp [Functor.map, andThen, answer]

private theorem pure_bind_report (a : α) (next : α → Report β) : pure a >>= next = next a := by
  simp [Bind.bind, Pure.pure, andThen, answer]

private theorem bind_assoc_report {γ : Type} (x : Report α) (next : α → Report β)
    (last : β → Report γ) : x >>= next >>= last = x >>= fun a => next a >>= last := by
  obtain ⟨log, _ | a⟩ := x
  · rfl
  · simp only [Bind.bind, andThen]
    cases (next a).result <;> simp

instance : LawfulMonad Report :=
  LawfulMonad.mk' Report map_id_report pure_bind_report bind_assoc_report

end Report

end DartDecoders
