import CartTokens.Text.Basic

/-!
# Records

The records an operation leaves behind while it works.  `Logged α` is a result together with
the records made on the way to it, oldest first.
-/

namespace CartTokens

/-- How important a record is; also the least importance that is shown, `off` showing none. -/
inductive Level where
  | off
  | error
  | warn
  | info
  | debug
  | trace
  deriving DecidableEq, Repr

namespace Level

/-- The place of a level in the order from silent to verbose. -/
def rank : Level → Nat
  | .off => 0
  | .error => 1
  | .warn => 2
  | .info => 3
  | .debug => 4
  | .trace => 5

/-- The word for the level. -/
def label : Level → Text
  | .off => "OFF".toList
  | .error => "ERROR".toList
  | .warn => "WARN".toList
  | .info => "INFO".toList
  | .debug => "DEBUG".toList
  | .trace => "TRACE".toList

/-- The level that is shown: the explicit one, else the one for so many requests to say more. -/
def resolve (explicit : Option Level) (verbose : Nat) : Level :=
  match explicit with
  | some level => level
  | none =>
    match verbose with
    | 0 => .warn
    | 1 => .info
    | 2 => .debug
    | _ => .trace

end Level

/-- A record. -/
structure Record where
  level : Level
  text : Text
  deriving DecidableEq, Repr

/-- A result and the records made on the way to it. -/
structure Logged (α : Type) where
  value : α
  records : List Record

namespace Logged

instance : Monad Logged where
  pure a := ⟨a, []⟩
  bind x f := ⟨(f x.value).value, x.records ++ (f x.value).records⟩

@[simp]
theorem value_pure {α : Type} (a : α) :
  (pure a : Logged α).value = a
  := rfl

@[simp]
theorem records_pure {α : Type} (a : α) :
  (pure a : Logged α).records = []
  := rfl

@[simp]
theorem value_bind {α β : Type} (x : Logged α) (f : α → Logged β) :
  (x >>= f).value = (f x.value).value
  := rfl

@[simp]
theorem records_bind {α β : Type} (x : Logged α) (f : α → Logged β) :
  (x >>= f).records = x.records ++ (f x.value).records
  := rfl

instance : LawfulMonad Logged :=
  LawfulMonad.mk' Logged
    (fun x => congrArg (Logged.mk x.value) (List.append_nil x.records))
    (fun _ _ => rfl)
    (fun _ _ _ => congrArg (Logged.mk _) (List.append_assoc _ _ _))

/-- Makes one record. -/
def record (level : Level) (text : Text) : Logged Unit :=
  ⟨(), [⟨level, text⟩]⟩

end Logged

end CartTokens
