import CartTokens.Text.Basic

/-!
# UTF-8

Bytes as text and text as bytes.  Reading never fails: a maximal ill-formed part, that is a
byte that starts no character or a proper beginning of a character, becomes one replacement
character.  `Utf8.decode?` and `Utf8.soundLines` are for readers that take no such parts.
-/

namespace CartTokens

/-- A string of bytes. -/
abbrev Bytes := List UInt8

namespace Utf8

/-- The character that stands for an ill-formed part. -/
def replacement : Char := '\ufffd'

/-- The bytes that may come next, both ends included. -/
structure ByteRange where
  first : UInt8
  last : UInt8

/-- The byte lies in the range. -/
def ByteRange.contains (r : ByteRange) (b : UInt8) : Bool :=
  r.first ≤ b && b ≤ r.last

/-- Any continuation byte. -/
def continuation : ByteRange := ⟨0x80, 0xbf⟩

/-- The ranges of the bytes that follow a first byte, or none if it starts no character. -/
def tailRanges (b : UInt8) : Option (List ByteRange) :=
  if b ≤ 0x7f then some []
  else if b < 0xc2 then none
  else if b ≤ 0xdf then some [continuation]
  else if b = 0xe0 then some [⟨0xa0, 0xbf⟩, continuation]
  else if b = 0xed then some [⟨0x80, 0x9f⟩, continuation]
  else if b ≤ 0xef then some [continuation, continuation]
  else if b = 0xf0 then some [⟨0x90, 0xbf⟩, continuation, continuation]
  else if b ≤ 0xf3 then some [continuation, continuation, continuation]
  else if b = 0xf4 then some [⟨0x80, 0x8f⟩, continuation, continuation]
  else none

/-- The longest beginning of the bytes that meets the ranges one after another. -/
def matching : List ByteRange → Bytes → Bytes
  | r :: rs, b :: bs => if r.contains b then b :: matching rs bs else []
  | _, _ => []

/-- The character with the given first byte and complete tail. -/
def assemble (b : UInt8) (tail : Bytes) : Char :=
  let lead := if tail.isEmpty then b.toNat else b.toNat % 2 ^ (6 - tail.length)
  Char.ofNat (tail.foldl (fun n t => n * 64 + t.toNat % 64) lead)

/-- The text of the bytes, a replacement character for every maximal ill-formed part. -/
def decode : Bytes → Text
  | [] => []
  | b :: bs =>
    match tailRanges b with
    | none => replacement :: decode bs
    | some ranges =>
      let tail := matching ranges bs
      let c := if tail.length = ranges.length then assemble b tail else replacement
      c :: decode (bs.drop tail.length)
termination_by bs => bs.length

/-- The bytes of a text. -/
def encode (t : Text) : Bytes :=
  t.flatMap String.utf8EncodeChar

/-- The text of the bytes, if they are well-formed. -/
def decode? (bs : Bytes) : Option Text :=
  let t := decode bs
  if encode t = bs then some t else none

/-- The bytes cut after each line break. -/
def pieces : Bytes → List Bytes
  | [] => []
  | b :: bs =>
    if b = 0x0a then [b] :: pieces bs
    else
      match pieces bs with
      | [] => [[b]]
      | p :: ps => (b :: p) :: ps

/-- The lines before the first one that is ill-formed, without their breaks. -/
def soundLines (bs : Bytes) : List Text :=
  (((pieces bs).map decode?).takeWhile Option.isSome).filterMap fun line => line.map Text.chomp

end Utf8

end CartTokens
