import ProtoSchema.Json.Token
/-!
# Reading a JSON text

The tokens of a text are read with a stack of the arrays and objects that are
still open. `read?` answers the value of a text that holds exactly one.
-/

namespace ProtoSchema.Json

/-- An open array or object with the parts read so far, last first; an object also holds the
key whose value is due. -/
inductive Frame where
  | array (done : List Json)
  | object (done : List (String × Json)) (key : String)

/-- What may come next. -/
inductive Due where
  | value
  | valueOrEnd
  | key (done : List (String × Json))
  | keyOrEnd
  | colon (done : List (String × Json)) (key : String)
  | after (value : Json)

structure Reading where
  due : Due
  stack : List Frame

/-- A token where a value is due. -/
def Token.begin? (t : Token) (stack : List Frame) : Option Reading :=
  match t with
  | .null => some ⟨.after .null, stack⟩
  | .bool b => some ⟨.after (.bool b), stack⟩
  | .num n => some ⟨.after (.num n), stack⟩
  | .str s => some ⟨.after (.str s), stack⟩
  | .openArray => some ⟨.valueOrEnd, .array [] :: stack⟩
  | .openObject => some ⟨.keyOrEnd, stack⟩
  | _ => none

/-- A token after the value `v`. -/
def Token.follow? (t : Token) (v : Json) : List Frame → Option Reading
  | [] => none
  | .array done :: stack =>
    match t with
    | .comma => some ⟨.value, .array (v :: done) :: stack⟩
    | .closeArray => some ⟨.after (.arr (v :: done).reverse), stack⟩
    | _ => none
  | .object done key :: stack =>
    match t with
    | .comma => some ⟨.key ((key, v) :: done), stack⟩
    | .closeObject => some ⟨.after (.obj ((key, v) :: done).reverse), stack⟩
    | _ => none

def Reading.step (r : Reading) (t : Token) : Option Reading :=
  match r.due with
  | .value => t.begin? r.stack
  | .valueOrEnd =>
    match t, r.stack with
    | .closeArray, _ :: stack => some ⟨.after (.arr []), stack⟩
    | _, stack => t.begin? stack
  | .key done =>
    match t with
    | .str key => some ⟨.colon done key, r.stack⟩
    | _ => none
  | .keyOrEnd =>
    match t with
    | .str key => some ⟨.colon [] key, r.stack⟩
    | .closeObject => some ⟨.after (.obj []), r.stack⟩
    | _ => none
  | .colon done key =>
    match t with
    | .colon => some ⟨.value, .object done key :: r.stack⟩
    | _ => none
  | .after v => t.follow? v r.stack

def Reading.run (r : Reading) (ts : List Token) : Option Reading := ts.foldlM Reading.step r

/-- The value that the tokens spell. -/
def ofTokens? (ts : List Token) : Option Json :=
  match Reading.run ⟨.value, []⟩ ts with
  | some ⟨.after v, []⟩ => some v
  | _ => none

def read? (s : String) : Option Json := (tokens? s.toList).bind ofTokens?

end ProtoSchema.Json
