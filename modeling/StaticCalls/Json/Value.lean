/-! JSON values. No format read here holds a number that is not an integer, so such numbers are
not kept apart. -/
namespace StaticCalls

inductive Json where
  | null
  | bool (b : Bool)
  | integer (n : Int)
  | string (s : String)
  | array (items : List Json)
  | object (members : List (String × Json))
  /-- Well-formed, but nothing that a field can hold: a number with a fraction or an exponent,
  minus zero, a string that spells no Unicode text, an object with such a key. -/
  | skipped
deriving Repr, BEq, Inhabited

namespace Json

def nat (n : Nat) : Json := .integer n

/-- Nothing becomes `null`. -/
def option (f : α → Json) : Option α → Json
  | some a => f a
  | none => .null

def list (f : α → Json) (l : List α) : Json := .array (l.map f)

/-- Members in ascending key order at every level. -/
def sortKeys : Json → Json
  | array items => .array (sortItems items)
  | object members => .object (sortMembers members)
  | other => other
where
  sortItems : List Json → List Json
    | [] => []
    | item :: rest => item.sortKeys :: sortItems rest
  sortMembers : List (String × Json) → List (String × Json)
    | [] => []
    | (key, value) :: rest => insert key value.sortKeys (sortMembers rest)
  insert (key : String) (value : Json) : List (String × Json) → List (String × Json)
    | [] => [(key, value)]
    | (k, v) :: rest =>
        if k < key then (k, v) :: insert key value rest else (key, value) :: (k, v) :: rest

end Json
end StaticCalls
