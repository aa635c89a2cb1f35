import Mathlib.Tactic

/-!
# JSON values as JavaScript reads them

What `JSON.parse` yields, property access, `??`, `===` and `String(…)`. `undefined` is `none`. A
conversion that throws a `TypeError` is `none` as well, where its type says so.
-/

namespace Js

/-- A parsed JSON value. A number is given by its rendering as a string. -/
inductive Json where
  | null
  | bool (b : Bool)
  | num (text : String)
  | str (s : String)
  | arr (elems : List Json)
  | obj (fields : List (String × Json))

namespace Json

/-- `value.key` of a value that is not null: only objects have the properties we read. Of two
fields of one name the later one counts. -/
def prop (key : String) : Json → Option Json
  | obj fields => (fields.reverse.find? fun f => f.1 = key).map (·.2)
  | _ => none

def isNull : Json → Bool
  | null => true
  | _ => false

/-- `value === b`. -/
def isBool (b : Bool) : Option Json → Bool
  | some (bool b') => b = b'
  | _ => false

/-- `a ?? b`. -/
def coalesce (a b : Option Json) : Option Json :=
  match a with
  | none | some null => b
  | some j => some j

/-- `a?.key`. -/
def optionalProp (key : String) : Option Json → Option Json
  | none => none
  | some j => j.prop key

mutual

/-- `String(value)`; `none` when it throws. An object is asked for its own `toString`, which from
JSON is never callable. -/
def text : Json → Option String
  | null => some "null"
  | bool true => some "true"
  | bool false => some "false"
  | num t => some t
  | str s => some s
  | arr elems => joined elems
  | obj fields => if fields.any (fun f => f.1 = "toString") then none else some "[object Object]"

/-- The elements joined with commas; null renders as nothing. -/
def joined : List Json → Option String
  | [] => some ""
  | [null] => some ""
  | [x] => text x
  | null :: xs => (joined xs).map ("," ++ ·)
  | x :: xs => (text x).bind fun t => (joined xs).map (t ++ "," ++ ·)

end

/-- `String(value ?? '')`. -/
def textOrEmpty (value : Option Json) : Option String :=
  match value with
  | none | some null => some ""
  | some j => j.text

end Json

end Js
