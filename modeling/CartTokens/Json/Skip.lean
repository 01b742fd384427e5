import CartTokens.Json.Scalar

/-!
# Skipping JSON

A value that nobody asked for is skipped: it has to be JSON, but numbers may be of any size and
the halves of character pairs may stand alone.
-/

namespace CartTokens

namespace JsonReader

/-- Skips a string after its opening quotation mark; halves of pairs may stand alone. -/
def skipString : Text → Except JsonFault Text
  | [] => .error .truncated
  | c :: cs =>
    if c = '\x22' then .ok cs
    else if c = '\\' then
      match cs with
      | [] => .error .truncated
      | d :: ds =>
        if d = 'u' then
          match fourDigits ds with
          | .error fault => .error fault
          | .ok _ => skipString (ds.drop 4)
        else if (shortEscape? d).isSome then skipString ds
        else .error .malformed
    else if c.toNat < 0x20 then .error .malformed
    else skipString cs
termination_by t => t.length

/-- Skips a number; one that breaks off is malformed. -/
def skipNumber (t : Text) : Except JsonFault Text :=
  match readWritten t with
  | .error _ => .error .malformed
  | .ok (_, rest) => .ok rest

mutual

/-- Skips any value.  The text is longer than the number of values in it, so its length is
enough for `fuel`. -/
def skipValue : (fuel : Nat) → Text → Except JsonFault Text
  | 0, _ => .error .malformed
  | fuel + 1, t =>
    match skipGaps t with
    | [] => .error .truncated
    | c :: cs =>
      if c = 'n' then word "ull".toList cs
      else if c = 't' then word "rue".toList cs
      else if c = 'f' then word "alse".toList cs
      else if startsNumber c then skipNumber (c :: cs)
      else if c = '\x22' then skipString cs
      else if c = '[' then
        match skipGaps cs with
        | ']' :: rest => .ok rest
        | _ => skipItems fuel cs
      else if c = '\x7b' then
        match skipGaps cs with
        | '\x7d' :: rest => .ok rest
        | _ => skipMembers fuel cs
      else .error .malformed

/-- Skips the items of an array and its closing bracket. -/
def skipItems : (fuel : Nat) → Text → Except JsonFault Text
  | 0, _ => .error .malformed
  | fuel + 1, t =>
    match skipValue fuel t with
    | .error fault => .error fault
    | .ok afterValue =>
      match skipGaps afterValue with
      | [] => .error .truncated
      | ',' :: rest => skipItems fuel rest
      | ']' :: rest => .ok rest
      | _ => .error .malformed

/-- Skips the members of an object and its closing brace. -/
def skipMembers : (fuel : Nat) → Text → Except JsonFault Text
  | 0, _ => .error .malformed
  | fuel + 1, t =>
    match skipGaps t with
    | [] => .error .truncated
    | '\x22' :: key =>
      match skipString key with
      | .error fault => .error fault
      | .ok afterKey =>
        match skipGaps afterKey with
        | [] => .error .truncated
        | ':' :: value =>
          match skipValue fuel value with
          | .error fault => .error fault
          | .ok afterValue =>
            match skipGaps afterValue with
            | [] => .error .truncated
            | ',' :: rest => skipMembers fuel rest
            | '\x7d' :: rest => .ok rest
            | _ => .error .malformed
        | _ => .error .malformed
    | _ => .error .malformed

end

end JsonReader

end CartTokens
