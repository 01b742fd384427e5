import CartTokens.Json.Scalar

/-!
# Reading JSON

Readers for values of an expected type, for arrays and for objects.
-/

namespace CartTokens

namespace JsonReader

/-! ### Values of an expected type -/

/-- The fault of a value that is not of the expected type; a fault inside it comes first. -/
def wrongType (t : Text) : JsonFault :=
  match t with
  | [] => .truncated
  | c :: cs =>
    let inner : Except JsonFault Unit :=
      if c = 'n' then (word "ull".toList cs).map fun _ => ()
      else if c = 't' then (word "rue".toList cs).map fun _ => ()
      else if c = 'f' then (word "alse".toList cs).map fun _ => ()
      else if startsNumber c then (readNumber t).map fun _ => ()
      else if c = '\x22' then (readString cs).map fun _ => ()
      else if c = '[' || c = '\x7b' then .ok ()
      else .error .malformed
    match inner with
    | .error fault => fault
    | .ok _ => .mismatched

/-- Reads a string value. -/
def string : JsonReader Text := fun t =>
  match skipGaps t with
  | '\x22' :: rest => readString rest
  | other => .error (wrongType other)

/-- Reads a number value. -/
def number : JsonReader Numeric := fun t =>
  if (skipGaps t).head?.any startsNumber then readNumber (skipGaps t)
  else .error (wrongType (skipGaps t))

/-- Reads an unsigned integer of 64 bits. -/
def unsigned : JsonReader Nat := fun t => do
  match ← number t with
  | (.unsigned n, rest) => return (n, rest)
  | _ => .error .mismatched

/-- Reads a signed integer of 64 bits. -/
def signed : JsonReader Int := fun t => do
  match ← number t with
  | (.unsigned n, rest) => if n ≤ maxSigned then return (n, rest) else .error .mismatched
  | (.negative n, rest) => return (-n, rest)
  | _ => .error .mismatched

/-- Reads a value that may be null. -/
def nullable {α : Type} (reader : JsonReader α) : JsonReader (Option α) := fun t =>
  match skipGaps t with
  | 'n' :: rest => (word "ull".toList rest).map fun r => (none, r)
  | _ => (reader t).map fun (a, rest) => (some a, rest)

/-! ### Objects and arrays -/

/-- Reads the colon between a key and its value. -/
def colon (t : Text) : Except JsonFault Text :=
  match skipGaps t with
  | [] => .error .truncated
  | ':' :: rest => .ok rest
  | _ => .error .malformed

/-- The next key of an object, with the text after it, or the text after the closing brace. -/
inductive NextKey where
  | key (name rest : Text)
  | closed (rest : Text)

/-- Reads up to the next key of an object or its end. -/
def nextKey (first : Bool) (t : Text) : Except JsonFault NextKey :=
  match skipGaps t with
  | [] => .error .truncated
  | '\x7d' :: rest => .ok (.closed rest)
  | c :: rest =>
    if first then
      if c = '\x22' then (readString rest).map fun (k, r) => .key k r else .error .malformed
    else if c = ',' then
      match skipGaps rest with
      | [] => .error .truncated
      | '\x22' :: more => (readString more).map fun (k, r) => .key k r
      | _ => .error .malformed
    else .error .malformed

/-- Reads the members of an object after its opening brace.  `member` reads on after a key,
before the colon. -/
def members {σ : Type} (member : σ → Text → Text → Except JsonFault (σ × Text)) :
    (fuel : Nat) → (first : Bool) → σ → Text → Except JsonFault (σ × Text)
  | 0, _, _, _ => .error .malformed
  | fuel + 1, first, state, t => do
    match ← nextKey first t with
    | .closed rest => return (state, rest)
    | .key name rest =>
      let (next, more) ← member state name rest
      members member fuel false next more

/-- Reads up to the next item of an array, or gives none at its closing bracket. -/
def nextItem (first : Bool) (t : Text) : Except JsonFault (Option Text) :=
  match skipGaps t with
  | [] => .error .truncated
  | ']' :: _ => .ok none
  | c :: rest =>
    if first then .ok (some (c :: rest))
    else if c = ',' then
      match skipGaps rest with
      | [] => .error .truncated
      | ']' :: _ => .error .malformed
      | more => .ok (some more)
    else .error .malformed

/-- Reads the closing bracket of an array. -/
def closeArray (t : Text) : Except JsonFault Text :=
  match skipGaps t with
  | [] => .error .truncated
  | ']' :: rest => .ok rest
  | _ => .error .malformed

/-- Reads the items of an array after its opening bracket, and the closing bracket. -/
def items {α : Type} (item : JsonReader α) :
    (fuel : Nat) → (first : Bool) → Text → Except JsonFault (List α × Text)
  | 0, _, _ => .error .malformed
  | fuel + 1, first, t => do
    match ← nextItem first t with
    | none => return ([], ← closeArray t)
    | some rest =>
      let (a, more) ← item rest
      let (as, final) ← items item fuel false more
      return (a :: as, final)

/-- Reads an array. -/
def array {α : Type} (item : JsonReader α) : JsonReader (List α) := fun t =>
  match skipGaps t with
  | '[' :: rest => items item (rest.length + 1) true rest
  | other => .error (wrongType other)

/-- Reads one item that an array must have. -/
def required {α : Type} (item : JsonReader α) (first : Bool) : JsonReader α := fun t => do
  match ← nextItem first t with
  | none => .error .mismatched
  | some rest => item rest

/-- Reads a value with fields, written as an object or as the array of its fields. -/
def record {α : Type} (ofObject ofArray : JsonReader α) : JsonReader α := fun t =>
  match skipGaps t with
  | '\x7b' :: rest => ofObject rest
  | '[' :: rest => do
    let (a, more) ← ofArray rest
    return (a, ← closeArray more)
  | other => .error (wrongType other)

/-- Reads a whole text. -/
def whole {α : Type} (reader : JsonReader α) (t : Text) : Except JsonFault α := do
  let (a, rest) ← reader t
  if (skipGaps rest).isEmpty then return a else .error .malformed

end JsonReader

end CartTokens
