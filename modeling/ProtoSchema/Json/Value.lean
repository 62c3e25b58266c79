/-!
# JSON values

The numbers are integers: bounds, orders and the numbers of declared values are,
so a conversion makes no others. The values and labels that a node offers may be
any JSON where the node is built by hand; of these, fractions are left out. The
members of an object keep their order.
-/

namespace ProtoSchema

inductive Json where
  | null
  | bool (b : Bool)
  | num (n : Int)
  | str (s : String)
  | arr (elements : List Json)
  | obj (members : List (String × Json))
deriving Inhabited, Repr

namespace Json

/-- The member of an object under `key`, the first if there are several. -/
def member? (key : String) : Json → Option Json
  | .obj members => members.lookup key
  | _ => none

end Json
end ProtoSchema
