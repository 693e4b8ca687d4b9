import ReportTemplate.Condition.Reader
import ReportTemplate.Filter.Basic

/-! Events of a render and values that come with them.
Nothing in a template stops a render; what is wrong is left as text and noted.
-/

namespace ReportTemplate

/-- The severity of an event. -/
inductive Level where
  | warning
  | error
  deriving DecidableEq, Repr

/-- Something noteworthy in a render. -/
inductive Event where
  | unclosedLoop (header : String)
  | unclosedCondition (condition : String)
  | invalidCondition (condition : String) (reason : Condition.ReadError)
  | unknownFilter (name : String) (hint : Option String)
  | failedFilter (name : String) (reason : FilterError)
  deriving DecidableEq, Repr

def Level.name : Level → String
  | .warning => "WARN"
  | .error => "ERROR"

namespace Event

/-- The severity of an event: only a filter that fails is an error. -/
def level : Event → Level
  | .failedFilter _ _ => .error
  | _ => .warning

def message : Event → String
  | .unclosedLoop header => "Unterminated `\x7b% for " ++ header ++ " %\x7d` block left as text"
  | .unclosedCondition condition =>
      "Unterminated `\x7b% if " ++ condition ++ " %\x7d` block left as text"
  | .invalidCondition condition reason =>
      "Invalid condition `" ++ condition ++ "` treated as false: " ++ reason.message
  | .unknownFilter name none => "Unknown filter `" ++ name ++ "` ignored"
  | .unknownFilter name (some hint) => "Unknown filter `" ++ name ++ "` ignored. " ++ hint
  | .failedFilter name reason =>
      "Filter `" ++ name ++ "` failed, value left unchanged: " ++ reason.message

end Event

/-- A value with the events raised on the way to it. -/
@[ext]
structure Logged (α : Type) where
  value : α
  log : List Event

namespace Logged

variable {α β : Type}

instance : Monad Logged where
  pure value := ⟨value, []⟩
  bind first next :=
    let second := next first.value
    ⟨second.value, first.log ++ second.log⟩

/-- Raises an event before a value is given. -/
def raise (event : Event) (value : α) : Logged α :=
  ⟨value, [event]⟩

/-- A pure value comes without events, by definition. -/
@[simp]
theorem log_pure (value : α) : (pure value : Logged α).log = [] :=
  rfl

/-- A pure value is the value, by definition. -/
@[simp]
theorem value_pure (value : α) : (pure value : Logged α).value = value :=
  rfl

/-- The value of a sequence is that of its second part, by definition. -/
@[simp]
theorem value_bind (first : Logged α) (next : α → Logged β)
    : (first >>= next).value = (next first.value).value :=
  rfl

/-- The events of a sequence are those of its parts in order, by definition. -/
@[simp]
theorem log_bind (first : Logged α) (next : α → Logged β)
    : (first >>= next).log = first.log ++ (next first.value).log :=
  rfl

/-- A function changes the value only, by definition. -/
@[simp]
theorem value_map (f : α → β) (x : Logged α) : (f <$> x).value = f x.value :=
  rfl

/-- A function raises no events, since a pure value has none. -/
@[simp]
theorem log_map (f : α → β) (x : Logged α) : (f <$> x).log = x.log :=
  List.append_nil x.log

/-- Logged values form a lawful monad, since events are joined by append. -/
instance : LawfulMonad Logged :=
  LawfulMonad.mk' Logged
    (fun x => by cases x; simp [Functor.map])
    (fun value next => by cases h : next value; simp [bind, pure, h])
    (fun x f g => by simp [bind, List.append_assoc])

def concat (parts : List (Logged (List α))) : Logged (List α) :=
  ⟨parts.flatMap Logged.value, parts.flatMap Logged.log⟩

end Logged

end ReportTemplate
