import Hawal.Lib.Python

/-!
# JSON values in Python

What `json.loads` returns, and what Python code does with such a value without looking at its
type first: take it for true or false, turn it into a number or a string, loop over it, or read
a key of it.
-/

namespace Hawal.Lib.Python

/-- A float, by what is done with one. -/
structure Float64 where
  /-- `int(x)`; infinities and NaN have none. -/
  trunc : Option ℤ
  /-- What a text column stores for it; NaN is stored as NULL. -/
  column : Option Text
  /-- `str(x)`. -/
  shown : Str
  /-- It is not zero. -/
  truthy : Bool

/-- A value as `json.loads` returns it. The keys of a `dict` are distinct. -/
inductive Json where
  | null
  | bool (b : Bool)
  | int (n : ℤ)
  | float (x : Float64)
  | str (s : Str)
  | list (xs : List Json)
  | dict (fields : List (Str × Json))

/-- The fields of a decoded object. -/
abbrev Fields := List (Str × Json)

namespace Json

/-- `bool(v)`. -/
def truthy : Json → Bool
  | null => false
  | bool b => b
  | int n => n ≠ 0
  | float x => x.truthy
  | str s => !s.isEmpty
  | list xs => !xs.isEmpty
  | dict fields => !fields.isEmpty

/-- `int(v)`; `none` when it raises. -/
def toInt : Json → Option ℤ
  | null => none
  | bool b => some (if b then 1 else 0)
  | int n => some n
  | float x => x.trunc
  | str s => parseInt s
  | list _ => none
  | dict _ => none

/-- `str(v)`. How a list or a dict is printed depends on which code points count as printable:
that is `repr`. -/
def shown (repr : Json → Str) : Json → Str
  | null => Python.str "None"
  | bool b => Python.str (if b then "True" else "False")
  | int n => decimal n
  | float x => x.shown
  | str s => s
  | list xs => repr (list xs)
  | dict fields => repr (dict fields)

/-- The values that `for x in v` goes through; `none` when it raises. -/
def iter : Json → Option (List Json)
  | str s => some (s.map fun c => str [c])
  | list xs => some xs
  | dict fields => some (fields.map fun f => str f.1)
  | _ => none

/-- The fields of a dict; `none` when `v.get` raises. -/
def fields? : Json → Option Fields
  | dict fields => some fields
  | _ => none

/-- `v == s` for a string `s`. -/
def isStr (s : Str) : Json → Bool
  | str s' => s' = s
  | _ => false

end Json

/-- `d.get(k, default)`. -/
def Fields.get (d : Fields) (k : String) (default : Json) : Json :=
  ((d.find? fun f => f.1 = str k).map Prod.snd).getD default

end Hawal.Lib.Python
