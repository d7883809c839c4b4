import Mathlib.Algebra.Group.Nat.Defs
import Mathlib.Control.Monad.Basic

/-!
# Exceptions

The SDK's own errors, the standard library's, bleak's and aiohttp's that its `except`
clauses name, and `other` for the rest. A raised exception carries its message; `cause` is
the exception it was raised from when the message ends in that one's text, which
the interpreter words.
-/

namespace TuyaBle

inductive ExceptionType where
  | tuyaBleError
  | tuyaBleAuthenticationError
  | tuyaBleCloudError
  | tuyaBleConnectionError
  | tuyaBleHandshakeTimeoutError
  | tuyaBleProtocolError
  | bleakError
  | clientError
  | timeoutError
  | structError
  | valueError
  | unicodeDecodeError
  | indexError
  | cancelledError
  | other (name : String)
  deriving DecidableEq, Repr

/-- `issubclass(type, TuyaBleError)`. -/
def ExceptionType.isTuyaBleError : ExceptionType → Bool
  | .tuyaBleError | .tuyaBleAuthenticationError | .tuyaBleCloudError
  | .tuyaBleConnectionError | .tuyaBleHandshakeTimeoutError | .tuyaBleProtocolError => true
  | _ => false

/-- `issubclass(type, Exception)`: a cancellation is a `BaseException` only. -/
def ExceptionType.isException : ExceptionType → Bool
  | .cancelledError => false
  | _ => true

/-- `issubclass(type, ValueError)`. -/
def ExceptionType.isValueError : ExceptionType → Bool
  | .valueError | .unicodeDecodeError => true
  | _ => false

structure PyException where
  type : ExceptionType
  message : String
  cause : Option ExceptionType := none
  deriving DecidableEq, Repr

abbrev PyException.isTuyaBleError (e : PyException) : Bool := e.type.isTuyaBleError

def raise {α : Type} (type : ExceptionType) (message : String)
    (cause : Option ExceptionType := none) : Except PyException α :=
  .error ⟨type, message, cause⟩

/-- `x` fails only with an exception of `type`. -/
def Fails {α : Type} (x : Except PyException α) (type : ExceptionType) : Prop :=
  ∀ e, x = .error e → e.type = type

theorem Except.bind_eq_ok {ε α β : Type} {x : Except ε α} {f : α → Except ε β} {b : β} :
    (x >>= f) = .ok b ↔ ∃ a, x = .ok a ∧ f a = .ok b := by
  cases x <;> simp [bind, Except.bind]

theorem Except.bind_eq_error {ε α β : Type} {x : Except ε α} {f : α → Except ε β} {e : ε} :
    (x >>= f) = .error e ↔ x = .error e ∨ ∃ a, x = .ok a ∧ f a = .error e := by
  cases x <;> simp [bind, Except.bind]

theorem Fails.bind {α β : Type} {x : Except PyException α} {f : α → Except PyException β}
    {type : ExceptionType} (hx : Fails x type) (hf : ∀ a, x = .ok a → Fails (f a) type) :
    Fails (x >>= f) type := by
  intro e he
  rcases Except.bind_eq_error.1 he with he | ⟨a, ha, he⟩
  · exact hx e he
  · exact hf a ha e he

theorem fails_ok {α : Type} (a : α) (type : ExceptionType) :
    Fails (.ok a : Except PyException α) type := by
  intro e he
  cases he

end TuyaBle
