import ViewTree.Data.Basic
import ViewTree.Text.Message
import ViewTree.View.Basic

namespace ViewTree

inductive Level where
  | info
  | debug
  | trace
deriving DecidableEq

def Level.name : Level → String
  | .info => "INFO"
  | .debug => "DEBUG"
  | .trace => "TRACE"

inductive Record where
  | decodedTemplate (version : UInt32) (root : View.Kind) (holes : Nat)
  | decodedView (root : View.Kind)
  | rendering (root : View.Kind) (data : Data.Kind)
  | entering (view : View.Kind) (context : Data.Kind)
  | expanding (items : Nat)
deriving DecidableEq

namespace Record

open Text (decimal inBackquotes)

def level : Record → Level
  | .decodedTemplate .. | .decodedView _ | .expanding _ => .debug
  | .rendering .. => .info
  | .entering .. => .trace

def message : Record → String
  | .decodedTemplate version root holes =>
    "decoded template v" ++ decimal version.toNat ++ " rooted at " ++ inBackquotes root.name ++
      " (" ++ decimal holes ++ " holes)"
  | .decodedView root => "decoded bare " ++ inBackquotes root.name ++ " rendering code"
  | .rendering root data =>
    "rendering " ++ inBackquotes root.name ++ " template against " ++ inBackquotes data.name ++
      " data"
  | .entering view context =>
    "render " ++ inBackquotes view.name ++ " in " ++ inBackquotes context.name ++ " context"
  | .expanding items => "expanding list over " ++ decimal items ++ " items"

def line (record : Record) : String := record.level.name ++ " " ++ record.message

end Record

/-- The outcome of a computation and the records made on the way to it. -/
structure Logged (ε α : Type) where
  log : List Record
  outcome : Except ε α

namespace Logged

variable {ε α β : Type}

def ofExcept (outcome : Except ε α) : Logged ε α := ⟨[], outcome⟩

def record (record : Record) : Logged ε Unit := ⟨[record], .ok ()⟩

def bind (first : Logged ε α) (next : α → Logged ε β) : Logged ε β :=
  match first.outcome with
  | .error error => ⟨first.log, .error error⟩
  | .ok value =>
    let second := next value
    ⟨first.log ++ second.log, second.outcome⟩

theorem outcome_bind (first : Logged ε α) (next : α → Logged ε β) :
    (first.bind next).outcome = first.outcome.bind fun value => (next value).outcome := by
  unfold bind
  cases first.outcome <;> rfl

instance : Monad (Logged ε) where
  pure value := ⟨[], .ok value⟩
  bind := bind

@[simp]
theorem outcome_pure (value : α) : (pure value : Logged ε α).outcome = .ok value := rfl

@[simp]
theorem outcome_ofExcept (outcome : Except ε α) : (ofExcept outcome).outcome = outcome := rfl

@[simp]
theorem outcome_do (first : Logged ε α) (next : α → Logged ε β) :
    (first >>= next).outcome = first.outcome >>= fun value => (next value).outcome :=
  outcome_bind first next

@[simp]
theorem outcome_record (entry : Record) : (record entry : Logged ε Unit).outcome = .ok () := rfl

def mapError {ε' : Type} (f : ε → ε') (computation : Logged ε α) : Logged ε' α :=
  ⟨computation.log, computation.outcome.mapError f⟩

@[simp]
theorem outcome_mapError {ε' : Type} (f : ε → ε') (computation : Logged ε α) :
    (computation.mapError f).outcome = computation.outcome.mapError f := rfl

end Logged

end ViewTree
