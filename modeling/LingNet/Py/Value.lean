import Mathlib.Data.List.DropRight
import LingNet.Lib.Floats

/-! The values of Python that decoded JSON is made of, and the exceptions that their operators
raise. Numbers are exact. -/
namespace LingNet.Py

/-- The class of an exception. -/
inductive ExnClass where
  | keyError
  | indexError
  | typeError
  | valueError
  | attributeError
  | zeroDivisionError
  | other (name : String)
  deriving DecidableEq, Repr

/-- An exception other than those that end the task; `text` is what `str(e)` gives. -/
structure Exn where
  cls : ExnClass
  text : String
  deriving DecidableEq, Repr

theorem bind_eq_ok {α β : Type} {x : Except Exn α} {f : α → Except Exn β} {b : β} :
    (x >>= f) = .ok b ↔ ∃ a, x = .ok a ∧ f a = .ok b := by
  cases x with
  | error e => exact iff_of_false nofun fun ⟨a, h, _⟩ => nomatch h
  | ok a => exact ⟨fun h => ⟨a, rfl, h⟩, fun ⟨_, ha, h⟩ => Except.ok.inj ha ▸ h⟩

theorem bind_eq_error {α β : Type} {x : Except Exn α} {f : α → Except Exn β} {e : Exn} :
    (x >>= f) = .error e ↔ x = .error e ∨ ∃ a, x = .ok a ∧ f a = .error e := by
  cases x with
  | error e' =>
    constructor
    · intro h
      cases h
      exact .inl rfl
    · rintro (⟨⟨⟩⟩ | ⟨a, h, -⟩)
      · rfl
      · cases h
  | ok a =>
    refine ⟨fun h => .inr ⟨a, rfl, h⟩, ?_⟩
    rintro (h | ⟨a, ⟨⟩, h⟩)
    · cases h
    · exact h

theorem bind_of_ok {α β : Type} {x : Except Exn α} {a : α} (h : x = .ok a)
    (f : α → Except Exn β) : (x >>= f) = f a := by
  rw [h]
  rfl

inductive Json where
  | none
  | bool (b : Bool)
  | int (n : ℤ)
  | float (q : ℚ)
  | str (s : String)
  | list (items : List Json)
  | dict (fields : List (String × Json))

namespace Json

/-- `type(v).__name__` -/
def typeName : Json → String
  | .none => "NoneType"
  | .bool _ => "bool"
  | .int _ => "int"
  | .float _ => "float"
  | .str _ => "str"
  | .list _ => "list"
  | .dict _ => "dict"

def typeError {α : Type} (text : String) : Except Exn α := .error ⟨.typeError, text⟩

/-- `fields[key]` -/
def getField (fields : List (String × Json)) (key : String) : Except Exn Json :=
  match fields.lookup key with
  | some v => .ok v
  | .none => .error ⟨.keyError, "'" ++ key ++ "'"⟩

/-- `v[key]` -/
def getItem (v : Json) (key : String) : Except Exn Json :=
  match v with
  | .dict fields => getField fields key
  | .list _ => typeError "list indices must be integers or slices, not str"
  | .str _ => typeError "string indices must be integers, not 'str'"
  | v => typeError ("'" ++ v.typeName ++ "' object is not subscriptable")

/-- `v[0]` -/
def getFirst : Json → Except Exn Json
  | .list (v :: _) => .ok v
  | .list [] => .error ⟨.indexError, "list index out of range"⟩
  | .str s =>
    match s.toList with
    | c :: _ => .ok (.str (String.singleton c))
    | [] => .error ⟨.indexError, "string index out of range"⟩
  | .dict _ => .error ⟨.keyError, "0"⟩
  | v => typeError ("'" ++ v.typeName ++ "' object is not subscriptable")

/-- `v.get(key, default)` -/
def get (v : Json) (key : String) (default : Json) : Except Exn Json :=
  match v with
  | .dict fields => .ok ((fields.lookup key).getD default)
  | v => .error ⟨.attributeError, "'" ++ v.typeName ++ "' object has no attribute 'get'"⟩

/-- The number that a value stands for in a product. -/
def number? : Json → Option ℚ
  | .bool b => some (if b then 1 else 0)
  | .int n => some n
  | .float q => some q
  | _ => .none

/-- Strings and lists can be repeated. -/
def isSequence : Json → Bool
  | .str _ => true
  | .list _ => true
  | _ => false

/-- Whether a sequence can be repeated so many times. -/
def isIndex : Json → Bool
  | .bool _ => true
  | .int _ => true
  | _ => false

def unsupported (op left right : String) : String :=
  "unsupported operand type(s) for " ++ op ++ ": '" ++ left ++ "' and '" ++ right ++ "'"

/-- `bool(v)` -/
def truthy : Json → Bool
  | .none => false
  | .bool b => b
  | .int n => n ≠ 0
  | .float q => q ≠ 0
  | .str s => s ≠ ""
  | .list items => !items.isEmpty
  | .dict fields => !fields.isEmpty

/-- `v == s` for a string. -/
def isStr (v : Json) (s : String) : Bool :=
  match v with
  | .str t => t = s
  | _ => false

/-- The integer that a value is an instance of. -/
def integer? : Json → Option ℤ
  | .bool b => some (if b then 1 else 0)
  | .int n => some n
  | _ => .none

/-- `v + w` -/
def add (v w : Json) : Except Exn Json :=
  match v, w with
  | .str s, .str t => .ok (.str (s ++ t))
  | .str _, w => typeError ("can only concatenate str (not \"" ++ w.typeName ++ "\") to str")
  | .list items, .list items' => .ok (.list (items ++ items'))
  | .list _, w => typeError ("can only concatenate list (not \"" ++ w.typeName ++ "\") to list")
  | v, w =>
    match v.integer?, w.integer? with
    | some m, some n => .ok (.int (m + n))
    | _, _ =>
      match v.number?, w.number? with
      | some p, some q => .ok (.float (p + q))
      | _, _ => typeError (unsupported "+" v.typeName w.typeName)

/-- The text of the error of `s * n / 1_000_000`, for a sequence `s`. -/
def repeatError (s n : Json) : String :=
  if n.isIndex then unsupported "/" s.typeName "int"
  else "can't multiply sequence by non-int of type '" ++ n.typeName ++ "'"

def overflowError {α : Type} (text : String) : Except Exn α :=
  .error ⟨.other "OverflowError", text⟩

/-- `float(v)`, as a product with a float converts its other side. -/
def asFloat [Floats] : Json → Option (Except Exn ℚ)
  | .float q => some (.ok q)
  | v => v.integer?.map fun n =>
    match Floats.ofInt n with
    | some q => .ok q
    | .none => overflowError "int too large to convert to float"

/-- `tokens * price / 1_000_000`: integers are multiplied exactly, and their quotient is rounded
once. -/
def perMillion [Floats] (tokens price : Json) : Except Exn ℚ :=
  match tokens.integer?, price.integer? with
  | some t, some p =>
    let quotient : ℚ := t * p / 1000000
    if Floats.inRange quotient then .ok (Floats.round quotient)
    else overflowError "integer division result too large for a float"
  | _, _ =>
    match tokens.asFloat, price.asFloat with
    | some t, some p => do pure (Floats.div (Floats.mul (← t) (← p)) 1000000)
    | _, _ =>
      if tokens.isSequence then typeError (repeatError tokens price)
      else if price.isSequence then typeError (repeatError price tokens)
      else typeError (unsupported "*" tokens.typeName price.typeName)

/-- The decimal digits of an integer, with an underscore between two of them at most. -/
def digits (acc : ℕ) (behindDigit : Bool) : List Char → Option ℕ
  | [] => if behindDigit then some acc else .none
  | c :: cs =>
    if c.isDigit then digits (acc * 10 + (c.toNat - '0'.toNat)) true cs
    else if c = '_' ∧ behindDigit then digits acc false cs
    else .none

/-- The integer that a string denotes, with a sign and blanks around it. -/
def intOfString (s : String) : Option ℤ :=
  match (s.toList.dropWhile Char.isWhitespace).rdropWhile Char.isWhitespace with
  | '-' :: cs => (digits 0 false cs).map fun n => -(n : ℤ)
  | '+' :: cs => (digits 0 false cs).map fun n => (n : ℤ)
  | cs => (digits 0 false cs).map fun n => (n : ℤ)

/-- `int(v)` -/
def toInt : Json → Except Exn ℤ
  | .bool b => .ok (if b then 1 else 0)
  | .int n => .ok n
  | .float q => .ok (q.num.tdiv q.den)
  | .str s =>
    match intOfString s with
    | some n => .ok n
    | .none =>
      .error ⟨.valueError, "invalid literal for int() with base 10: '" ++ s ++ "'"⟩
  | v => typeError ("int() argument must be a string, a bytes-like object or a real number, not '" ++
      v.typeName ++ "'")

example : intOfString " -1_000 " = some (-1000) := by decide

end Json

/-- `candidate.split("/", 1)`, unpacked into two names. -/
def splitSlash (candidate : String) : Except Exn (String × String) :=
  match candidate.toList.dropWhile (· ≠ '/') with
  | _ :: rest => .ok (String.ofList (candidate.toList.takeWhile (· ≠ '/')), String.ofList rest)
  | [] => .error ⟨.valueError, "not enough values to unpack (expected 2, got 1)"⟩

/-- `part in text` -/
def Contains (part text : String) : Prop := part.toList <:+: text.toList

instance (part text : String) : Decidable (Contains part text) :=
  inferInstanceAs (Decidable (part.toList <:+: text.toList))

end LingNet.Py
