import LexicalModes.Json

/-!
Reading the text of JSON documents.

`Json.read` never fails: it returns the tree of what could be read, with the fault that ended the
reading in its place. Strings and numbers are judged character by character, so that a fault tells a
text that ends too early from one in which something stands where it may not.
-/

namespace LexicalModes.Json

/-- Skip blanks. -/
def skipBlanks : List Char → List Char
  | c :: rest =>
    if c == ' ' || c == '\n' || c == '\t' || c == '\r' then skipBlanks rest else c :: rest
  | [] => []

/-- Read the given letters. -/
def readLetters : List Char → List Char → Except Fault (List Char)
  | [], text => .ok text
  | _ :: _, [] => .error .truncated
  | l :: letters, c :: rest => if l = c then readLetters letters rest else .error .malformed

/-- Value of a hexadecimal digit. -/
def hexDigit? (c : Char) : Option Nat :=
  if c.isDigit then some (c.toNat - '0'.toNat)
  else if 'a' ≤ c && c ≤ 'f' then some (c.toNat - 'a'.toNat + 10)
  else if 'A' ≤ c && c ≤ 'F' then some (c.toNat - 'A'.toNat + 10)
  else none

/-- Read four hexadecimal digits. The text has to have four bytes left to be judged at all. -/
def readUnit (text : List Char) : Except Fault (Nat × List Char) :=
  let digits := text.take 4
  if digits.foldl (fun n c => n + c.utf8Size) 0 < 4 then .error .truncated
  else
    match digits.mapM hexDigit? with
    | some [a, b, c, d] => .ok (((a * 16 + b) * 16 + c) * 16 + d, text.drop 4)
    | _ => .error .malformed

/-- The character that a letter stands for after a backslash. -/
def escapedChar? : Char → Option Char
  | '"' => some '"'
  | '\\' => some '\\'
  | '/' => some '/'
  | 'b' => some (Char.ofNat 8)
  | 'f' => some (Char.ofNat 12)
  | 'n' => some '\n'
  | 'r' => some '\r'
  | 't' => some '\t'
  | _ => none

/-- A string being read: its characters, the latest first, unless escapes did not form one; and the
first half of a character that is written as two units. -/
structure StringReader where
  chars : Except Fault (List Char) := .ok []
  half : Option Nat := none

namespace StringReader

/-- A first half without its second is a fault, which is noticed as `fault`. -/
def settle (r : StringReader) (fault : Fault) : StringReader :=
  match r.half with
  | some _ => { r with half := none, chars := r.chars.bind fun _ => .error fault }
  | none => r

/-- Add a character. -/
def push (r : StringReader) (c : Char) : StringReader :=
  let r := r.settle .malformed
  { r with chars := r.chars.map (c :: ·) }

/-- Add a unit: a character, or one half of a character. -/
def pushUnit (r : StringReader) (unit : Nat) : StringReader :=
  match r.half with
  | some high =>
    if 0xDC00 ≤ unit && unit ≤ 0xDFFF then
      let c := Char.ofNat (0x10000 + (high - 0xD800) * 0x400 + (unit - 0xDC00))
      { half := none, chars := r.chars.map (c :: ·) }
    else { half := none, chars := r.chars.bind fun _ => .error .malformed }
  | none =>
    if 0xD800 ≤ unit && unit ≤ 0xDBFF then { r with half := some unit }
    else if 0xDC00 ≤ unit && unit ≤ 0xDFFF then
      { r with chars := r.chars.bind fun _ => .error .malformed }
    else { r with chars := r.chars.map (Char.ofNat unit :: ·) }

/-- The string read, when it ends or is cut short by a fault. -/
def finish (r : StringReader) (fault : Option Fault) : Quoted :=
  match fault with
  | none =>
    ⟨(r.settle .malformed).chars.map fun chars => String.ofList chars.reverse, none⟩
  | some f =>
    ⟨((r.settle f).chars.bind fun _ => .error f), some f⟩

end StringReader

/-- Read a string whose opening quotation mark has been read. -/
def readString : Nat → StringReader → List Char → Quoted × List Char
  | 0, r, text => (r.finish (some .truncated), text)
  | _, r, [] => (r.finish (some .truncated), [])
  | fuel + 1, r, c :: rest =>
    if c == '"' then (r.finish none, rest)
    else if c == '\\' then
      match rest with
      | [] => (r.finish (some .truncated), [])
      | 'u' :: rest =>
        match readUnit rest with
        | .ok (unit, rest) => readString fuel (r.pushUnit unit) rest
        | .error f => (r.finish (some f), rest)
      | e :: rest =>
        match escapedChar? e with
        | some c => readString fuel (r.push c) rest
        | none => ((r.settle .malformed).finish (some .malformed), rest)
    else if c.toNat < 0x20 then (r.finish (some .malformed), rest)
    else readString fuel (r.push c) rest

/-- Digits at the front of a text, and the rest. -/
def spanDigits (text : List Char) : List Char × List Char :=
  (text.takeWhile Char.isDigit, text.dropWhile Char.isDigit)

/-- The number that digits stand for. -/
def digitsValue (digits : List Char) : Nat :=
  digits.foldl (fun n c => 10 * n + (c.toNat - '0'.toNat)) 0

/-- Largest whole number that the digits of a number are gathered in. -/
def largestSignificand : Nat := 0xFFFFFFFFFFFFFFFF

/-- The digits of a number that are gathered, as a whole number, and the power of ten it is scaled
by. -/
structure Scaled where
  significand : Nat := 0
  exponent : Int := 0

namespace Scaled

/-- The number with one more digit at its end, unless that makes it too large to gather. -/
def push? (s : Scaled) (c : Char) : Option Scaled :=
  let n := 10 * s.significand + (c.toNat - '0'.toNat)
  if n ≤ largestSignificand then some { s with significand := n } else none

/-- Gather the digits before the point. From the first that makes the number too large on, they only
scale it. -/
def ofWhole (digits : List Char) : Scaled :=
  (digits.foldl (fun (s, full) c =>
    match (if full then none else push? s c) with
    | some s => (s, false)
    | none => ({ s with exponent := s.exponent + 1 }, true)) (({} : Scaled), false)).1

/-- Gather the digits after the point, up to the first that makes the number too large. -/
def addFraction (s : Scaled) : List Char → Scaled
  | [] => s
  | c :: rest =>
    match s.push? c with
    | some next => addFraction { next with exponent := s.exponent - 1 } rest
    | none => s

end Scaled

/-- The nearest number with at most fifty-three binary digits before its zeros; of two that are
equally near, the one with an even last digit. -/
def roundBinary (n : Nat) : Nat :=
  if n < 0x20000000000000 then n
  else
    let unit := Nat.pow 2 (Nat.log2 n - 52)
    let (digits, rest) := (n / unit, n % unit)
    let up := 2 * rest > unit || (2 * rest == unit && digits % 2 == 1)
    (if up then digits + 1 else digits) * unit

/-- The first number that is rounded to no value. -/
def valueBound : Nat := 0x3FFFFFFFFFFFFF * Nat.pow 2 970

/-- Whether a scaled number is too large to have a value. The significand and the power of ten are
rounded before they are multiplied. -/
def Scaled.isTooLarge (s : Scaled) : Bool :=
  if s.significand = 0 || s.exponent < 0 then false
  else if s.exponent > 308 then true
  else roundBinary s.significand * roundBinary (Nat.pow 10 s.exponent.toNat) ≥ valueBound

/-- Read the fraction of a number, if there is one. -/
def readFraction : List Char → Except Fault (List Char × List Char)
  | '.' :: rest =>
    match spanDigits rest with
    | ([], []) => .error .truncated
    | ([], _) => .error .malformed
    | (digits, rest) => .ok (digits, rest)
  | text => .ok ([], text)

/-- Read the exponent of a number, if there is one. -/
def readExponent : List Char → Except Fault (Option Int × List Char)
  | [] => .ok (none, [])
  | c :: rest =>
    if c == 'e' || c == 'E' then
      let (negative, rest) := match rest with
        | '+' :: rest => (false, rest)
        | '-' :: rest => (true, rest)
        | _ => (false, rest)
      match spanDigits rest with
      | ([], []) => .error .truncated
      | ([], _) => .error .malformed
      | (digits, rest) =>
        let n : Int := digitsValue digits
        .ok (some (if negative then -n else n), rest)
    else .ok (none, c :: rest)

/-- Read a number. A leading zero stands alone. -/
def readNumber (text : List Char) : Except Fault (Numeral × List Char) := do
  let (negative, text) := match text with
    | '-' :: rest => (true, rest)
    | _ => (false, text)
  let (whole, rest) ← match spanDigits text with
    | ([], []) => .error .truncated
    | ([], _) => .error .malformed
    | ('0' :: _ :: _, _) => .error .malformed
    | (digits, rest) => pure (digits, rest)
  let (fraction, rest) ← readFraction rest
  let (exponent, rest) ← readExponent rest
  let gathered := (Scaled.ofWhole whole).addFraction fraction
  let scaled := { gathered with exponent := gathered.exponent + exponent.getD 0 }
  if scaled.isTooLarge then return (.tooLarge, rest)
  else if fraction.isEmpty && exponent.isNone && !negative then
    return (.natural (digitsValue whole), rest)
  else return (.other, rest)

mutual

/-- Read a value and return the text after it; there is none after a fault. -/
def readValue : Nat → List Char → Json × Option (List Char)
  | 0, _ => (.broken .truncated, none)
  | fuel + 1, text =>
    let word (letters : List Char) (value : Json) (rest : List Char) :=
      match readLetters letters rest with
      | .ok rest => (value, some rest)
      | .error f => (.broken f, none)
    match skipBlanks text with
    | [] => (.broken .truncated, none)
    | 'n' :: rest => word ['u', 'l', 'l'] .null rest
    | 't' :: rest => word ['r', 'u', 'e'] (.bool true) rest
    | 'f' :: rest => word ['a', 'l', 's', 'e'] (.bool false) rest
    | '"' :: rest =>
      let (s, rest) := readString (rest.length + 1) {} rest
      (.string s, if s.fault.isSome then none else some rest)
    | '[' :: rest =>
      let (items, rest) := readItems true fuel rest
      (.array items, rest)
    | '\x7b' :: rest =>
      let (fields, rest) := readFields true fuel rest
      (.object fields, rest)
    | c :: rest =>
      if c.isDigit || c == '-' then
        match readNumber (c :: rest) with
        | .ok (n, rest) => (.number n, some rest)
        | .error f => (.broken f, none)
      else (.broken .malformed, none)

/-- Read the items of an array up to its closing bracket. A comma comes before every item but the
first, and none before the bracket. -/
def readItems (first : Bool) : Nat → List Char → Items × Option (List Char)
  | 0, _ => (.broken .truncated, none)
  | fuel + 1, text =>
    let next (text : List Char) :=
      match readValue fuel text with
      | (value, none) => (Items.item value .done, none)
      | (value, some rest) =>
        let (items, rest) := readItems false fuel rest
        (.item value items, rest)
    match skipBlanks text with
    | [] => (.broken .truncated, none)
    | ']' :: rest => (.done, some rest)
    | c :: rest =>
      if first then next (c :: rest)
      else if c == ',' then
        match skipBlanks rest with
        | [] => (.item (.broken .truncated) .done, none)
        | ']' :: _ => (.broken .malformed, none)
        | text => next text
      else (.broken .malformed, none)

/-- Read the fields of an object up to its closing brace. A comma comes before every field but the
first, and none before the brace. -/
def readFields (first : Bool) : Nat → List Char → Fields × Option (List Char)
  | 0, _ => (.broken .truncated, none)
  | fuel + 1, text =>
    let next (text : List Char) :=
      let (key, rest) := readString (text.length + 1) {} text
      match key.fault with
      | some f => (Fields.field key (.broken f) .done, none)
      | none =>
        match skipBlanks rest with
        | [] => (.field key (.broken .truncated) .done, none)
        | ':' :: rest =>
          match readValue fuel rest with
          | (value, none) => (.field key value .done, none)
          | (value, some rest) =>
            let (fields, rest) := readFields false fuel rest
            (.field key value fields, rest)
        | _ => (.field key (.broken .malformed) .done, none)
    match skipBlanks text with
    | [] => (.broken .truncated, none)
    | '\x7d' :: rest => (.done, some rest)
    | '"' :: rest => if first then next rest else (.broken .malformed, none)
    | c :: rest =>
      if c == ',' && !first then
        match skipBlanks rest with
        | [] => (.broken .truncated, none)
        | '"' :: rest => next rest
        | _ => (.broken .malformed, none)
      else (.broken .malformed, none)

end

/-- A document: its value, and the fault of anything but blanks after it. -/
structure Document where
  value : Json
  trailing : Option Fault

/-- Read a document. -/
def read (text : String) : Document :=
  let chars := text.toList
  match readValue (2 * chars.length + 2) chars with
  | (value, none) => ⟨value, none⟩
  | (value, some rest) => ⟨value, if (skipBlanks rest).isEmpty then none else some .malformed⟩

end LexicalModes.Json
