import Mathlib.Data.List.Basic
import Prequest.Lib.Calendar

/-!
# Values of a script

The values that JSON holds, with `undefined`, and the conversions that JavaScript
makes between them: `String(v)`, `Number(v)`, `Date.parse` and the truth of a
value. A number is a rational; `none` stands for `NaN`.

* `JsValue.toStr`, `JsValue.toNumber`, `JsValue.truthy`: the conversions.
* `JsValue.convertible`: when a value has a text and a number.
-/

namespace Prequest.Lib

inductive JsValue where
  | undefined
  | null
  | bool (b : Bool)
  | number (q : Rat)
  | string (s : String)
  | array (xs : List JsValue)
  | object (fields : List (String × JsValue))
  deriving Repr

namespace JsValue

/-! ## Properties -/

/-- `v == null`. -/
def isNullish : JsValue → Bool
  | .undefined | .null => true
  | _ => false

/-- The field of an object. -/
def field? (fields : List (String × JsValue)) (k : String) : Option JsValue := fields.lookup k

/-- The own property `k`: a field of an object, a place of an array, or the length of an array. -/
def get : JsValue → String → JsValue
  | .object fields, k => (field? fields k).getD .undefined
  | .array xs, k =>
      if k = "length" then .number xs.length
      else match (List.range xs.length).find? fun i => toString i == k with
        | some i => xs.getD i .undefined
        | none => .undefined
  | _, _ => .undefined

/-- `k in v`, for the fields of an object. -/
def hasKey : JsValue → String → Bool
  | .object fields, k => (field? fields k).isSome
  | _, _ => false

/-- `v && typeof v === 'object'`. -/
def isObject : JsValue → Bool
  | .object _ | .array _ => true
  | _ => false

/-- The truth of a value. -/
def truthy : JsValue → Bool
  | .undefined | .null => false
  | .bool b => b
  | .number q => q != 0
  | .string s => s != ""
  | .array _ | .object _ => true

/-! ## Texts and numbers -/

/-- The decimals of a fraction below one, up to the given number. -/
def decimals (den : Nat) : Nat → Nat → List Char
  | 0, _ => []
  | n + 1, num =>
      if num = 0 then []
      else Nat.digitChar (10 * num / den) :: decimals den n (10 * num % den)

/-- `String(q)`, with at most 17 decimals. -/
def numberToString (q : Rat) : String :=
  if q.den = 1 then toString q.num
  else
    (if q.num < 0 then "-" else "") ++ toString (q.num.natAbs / q.den) ++ "." ++
      String.ofList (decimals q.den 17 (q.num.natAbs % q.den))

mutual

/-- `String(v)`. -/
def toStr : JsValue → String
  | .undefined => "undefined"
  | .null => "null"
  | .bool b => if b then "true" else "false"
  | .number q => numberToString q
  | .string s => s
  | .array xs => ",".intercalate (elementStrs xs)
  | .object _ => "[object Object]"

/-- The elements as `Array.prototype.join` writes them. -/
def elementStrs : List JsValue → List String
  | [] => []
  | x :: xs => (if x.isNullish then "" else x.toStr) :: elementStrs xs

end

mutual

/-- `String(v)` and `Number(v)` return: no field of an object in `v` hides its `toString`. -/
def convertible : JsValue → Bool
  | .array xs => elementsConvertible xs
  | .object fields => (field? fields "toString").isNone
  | _ => true

def elementsConvertible : List JsValue → Bool
  | [] => true
  | x :: xs => x.convertible && elementsConvertible xs

end

/-- The properties that every object inherits. -/
def inheritedKeys : List String :=
  ["constructor", "__defineGetter__", "__defineSetter__", "hasOwnProperty", "__lookupGetter__",
    "__lookupSetter__", "isPrototypeOf", "propertyIsEnumerable", "toString", "valueOf", "__proto__",
    "toLocaleString"]

def isInherited (k : String) : Bool := inheritedKeys.contains k

/-- The digits at the start of a text, with what follows them. -/
def takeDigits : List Char → List Nat × List Char
  | [] => ([], [])
  | c :: cs =>
      if c.isDigit then
        let rest := takeDigits cs
        ((c.toNat - '0'.toNat) :: rest.1, rest.2)
      else ([], c :: cs)

/-- A row of digits as a number. -/
def digitsToNat (ds : List Nat) : Nat := ds.foldl (fun n d => 10 * n + d) 0

/-- The sign at the start of a text. -/
def takeSign : List Char → Int × List Char
  | '-' :: cs => (-1, cs)
  | '+' :: cs => (1, cs)
  | cs => (1, cs)

/-- The exponent at the end of a number. -/
def exponent? : List Char → Option Int
  | [] => some 0
  | c :: cs =>
      if c = 'e' ∨ c = 'E' then
        let (sign, cs) := takeSign cs
        match takeDigits cs with
        | ([], _) => none
        | (ds, []) => some (sign * digitsToNat ds)
        | _ => none
      else none

/-- `q * 10 ^ e`. -/
def shiftDecimal (q : Rat) (e : Int) : Rat :=
  if 0 ≤ e then q * 10 ^ e.toNat else q / 10 ^ (-e).toNat

/-- A decimal number without blanks around it. -/
def decimal? (cs : List Char) : Option Rat :=
  let (sign, cs) := takeSign cs
  let (whole, cs) := takeDigits cs
  let (fraction, cs) := match cs with
    | '.' :: cs => takeDigits cs
    | cs => ([], cs)
  if whole.isEmpty && fraction.isEmpty then none
  else (exponent? cs).map fun e =>
    shiftDecimal (sign * digitsToNat (whole ++ fraction)) (e - fraction.length)

/-- The blanks around a number. -/
def isBlank (c : Char) : Bool := c.isWhitespace || c.toNat == 11 || c.toNat == 12

def trim (s : String) : List Char :=
  ((s.toList.dropWhile isBlank).reverse.dropWhile isBlank).reverse

/-- `Number(s)`. -/
def stringToNumber (s : String) : Option Rat :=
  match trim s with
  | [] => some 0
  | cs => decimal? cs

/-- `Number(v)`. -/
def toNumber : JsValue → Option Rat
  | .undefined => none
  | .null => some 0
  | .bool b => some (if b then 1 else 0)
  | .number q => some q
  | .string s => stringToNumber s
  | .array xs => stringToNumber (toStr (.array xs))
  | .object _ => none

end JsValue

/-! ## Dates -/

/-- The given number of digits at the start of a text. -/
def takeNumber (n : Nat) (cs : List Char) : Option (Nat × List Char) :=
  let ds := cs.take n
  if ds.length = n ∧ ds.all Char.isDigit = true then
    some (JsValue.digitsToNat (ds.map fun c => c.toNat - '0'.toNat), cs.drop n)
  else none

/-- The character at the start of a text. -/
def expect (c : Char) : List Char → Option (List Char)
  | d :: cs => if c = d then some cs else none
  | [] => none

/-- The first three decimals of the seconds. -/
def milliseconds (ds : List Nat) : Nat := JsValue.digitsToNat ((ds ++ [0, 0, 0]).take 3)

/-- The seconds with their decimals, in milliseconds. -/
def parseSeconds : List Char → Option (Nat × List Char)
  | ':' :: cs => do
      let (s, cs) ← takeNumber 2 cs
      guard (s < 60)
      match cs with
      | '.' :: cs =>
          let (ds, cs) := JsValue.takeDigits cs
          guard (!ds.isEmpty)
          return (1000 * s + milliseconds ds, cs)
      | cs => return (1000 * s, cs)
  | cs => some (0, cs)

/-- The offset from UTC at the end of a time, in milliseconds. The server runs in UTC, which a time
without an offset is read in. -/
def parseOffset : List Char → Option Int
  | [] => some 0
  | ['Z'] => some 0
  | c :: cs => do
      guard (c = '+' ∨ c = '-')
      let (h, cs) ← takeNumber 2 cs
      let cs ← expect ':' cs
      let (m, cs) ← takeNumber 2 cs
      guard (cs.isEmpty ∧ h < 24 ∧ m < 60)
      let offset : Int := 60000 * (60 * h + m)
      return if c = '-' then -offset else offset

/-- The time of a date-time string after its date. -/
def parseTime : List Char → Option Int
  | [] => some 0
  | cs => do
      let cs ← expect 'T' cs
      let (h, cs) ← takeNumber 2 cs
      let cs ← expect ':' cs
      let (m, cs) ← takeNumber 2 cs
      let (ms, cs) ← parseSeconds cs
      guard (m < 60 ∧ (h < 24 ∨ h = 24 ∧ m = 0 ∧ ms = 0))
      let offset ← parseOffset cs
      return 60000 * (60 * h + m) + ms - offset

/-- `Date.parse`, of the strings of ISO 8601. A day that the month does not have rolls over. -/
def dateParse (s : String) : Option Int := do
  let (y, cs) ← takeNumber 4 s.toList
  let cs ← expect '-' cs
  let (m, cs) ← takeNumber 2 cs
  let cs ← expect '-' cs
  let (d, cs) ← takeNumber 2 cs
  guard (1 ≤ m ∧ m ≤ 12 ∧ 1 ≤ d ∧ d ≤ 31)
  let time ← parseTime cs
  return Calendar.msPerDay * (Calendar.monthStart (12 * y + (m - 1)) + (d - 1)) + time

example : dateParse "2026-03-01T10:30:00.250+01:00" = some 1772357400250 := by decide +kernel

end Prequest.Lib
