import ScopeForest.Json.Basic

namespace ScopeForest.Json

def setField (fields : List (String × Json)) (key : String) (v : Json) : List (String × Json) :=
  if fields.any (·.1 == key) then fields.map fun e ↦ if e.1 == key then (key, v) else e
  else fields ++ [(key, v)]

def nest (path : List String) (v : Json) : Json := path.foldr tagged v

mutual

/-- The second value laid over the first. -/
def overlay : Json → Json → Json
  | obj base, obj fields => obj (overlayFields base fields)
  | _, v => v

def overlayFields (base : List (String × Json)) : List (String × Json) → List (String × Json)
  | [] => base
  | (key, v) :: fields =>
    overlayFields (setField base key (overlay ((base.lookup key).getD null) v)) fields

end

end ScopeForest.Json
