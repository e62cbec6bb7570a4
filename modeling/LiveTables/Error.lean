namespace LiveTables

/-- A cause of failure, as an answer: the code that was called gave it and returned. -/
inductive Error where
  | io (reason : String)
  | load (typeName reason : String)
  | sourceMissing (typeName location : String)
  | duplicateId (typeName id : String)
  | listener (name reason : String)
  | typeMismatch (typeName : String)
  | config (reason : String)
deriving DecidableEq, Inhabited, Repr

def Error.message : Error → String
  | io reason => "I/O error: " ++ reason
  | load typeName reason => "Failed to load " ++ typeName ++ ": " ++ reason
  | sourceMissing typeName location => "No source for " ++ typeName ++ " at " ++ location
  | duplicateId typeName id => "Duplicate id " ++ id ++ " in " ++ typeName
  | listener name reason => "Listener " ++ name ++ " failed: " ++ reason
  | typeMismatch typeName =>
    "Store registered for " ++ typeName ++ " holds a different record type"
  | config reason => "Configuration error: " ++ reason

/-- What is known of a call that ended abruptly. It gave no answer, and what it was doing stays half
done. -/
inductive Fault where
  | text (message : String)
  | unspoken
deriving DecidableEq, Inhabited, Repr

/-- The message of a fault. One without a text has a fixed message. -/
def Fault.message : Fault → String
  | text message => message
  | unspoken => "(non-string panic)"

def Fault.reason (f : Fault) : String := "panicked: " ++ f.message

/-- How a call ends: with a result, with an error, or abruptly. -/
inductive Outcome (α : Type) where
  | done (result : α)
  | failed (error : Error)
  | faulted (fault : Fault)
deriving DecidableEq, Inhabited, Repr

namespace Outcome

/-- Goes on after a result and passes every other end through. -/
def bind {α β : Type} (x : Outcome α) (next : α → Outcome β) : Outcome β :=
  match x with
  | done a => next a
  | failed e => failed e
  | faulted f => faulted f

instance : Monad Outcome where
  pure := done
  bind := bind

instance : LawfulMonad Outcome :=
  LawfulMonad.mk' Outcome (fun x => by cases x <;> rfl) (fun _ _ => rfl)
    (fun x _ _ => by cases x <;> rfl)

/-- Why a call gave no result, if it gave none. -/
def reason? {α : Type} : Outcome α → Option String
  | done _ => none
  | failed e => some e.message
  | faulted f => some f.reason

@[simp] theorem bind_done {α β : Type} (a : α) (next : α → Outcome β) :
    (done a >>= next) = next a := rfl

@[simp] theorem bind_failed {α β : Type} (e : Error) (next : α → Outcome β) :
    (failed e >>= next) = failed e := rfl

@[simp] theorem bind_faulted {α β : Type} (f : Fault) (next : α → Outcome β) :
    (faulted f >>= next) = faulted f := rfl

@[simp] theorem pure_eq {α : Type} (a : α) : (pure a : Outcome α) = done a := rfl

end Outcome

end LiveTables
