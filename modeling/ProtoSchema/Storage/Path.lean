/-!
# Path texts

A path is a text of steps between slashes. Slashes in a row and steps that
stay where they are say nothing, except at the front. `parent?` takes off the
last step, which makes a path shorter (`parent?_shorter`).
-/

namespace ProtoSchema.Path

/-- A path inside a directory; one that starts at the root stands for itself. -/
def join (directory name : String) : String :=
  if name.toList.head? = some '/' then name
  else if directory.toList.getLast? = some '/' then directory ++ name
  else directory ++ "/" ++ name

/-- Takes the slashes and the steps `.` off the end of a path, which is given backwards. -/
def trimEnd : List Char → List Char
  | '/' :: c :: rest => trimEnd (c :: rest)
  | '.' :: '/' :: rest => trimEnd ('/' :: rest)
  | cs => cs

theorem trimEnd_length_le (cs : List Char) : (trimEnd cs).length ≤ cs.length := by
  fun_induction trimEnd cs with
  | case1 c rest ih => simp only [List.length_cons] at ih ⊢; omega
  | case2 rest ih => simp only [List.length_cons] at ih ⊢; omega
  | case3 => exact Nat.le_refl _

/-- What is left ends in a slash only if it is the root. -/
theorem trimEnd_eq_root {cs : List Char} (h : (trimEnd cs).head? = some '/') :
    trimEnd cs = ['/'] := by
  fun_induction trimEnd cs with
  | case1 c rest ih => exact ih h
  | case2 rest ih => exact ih h
  | case3 cs h1 h2 =>
    cases cs with
    | nil => cases h
    | cons c rest =>
      obtain rfl : c = '/' := by simpa using h
      cases rest with
      | nil => rfl
      | cons d rest => exact absurd rfl (h1 d rest)

/-- The path of the directory that holds what `cs` names; the root and the empty path have
none. -/
def parent? (cs : List Char) : Option (List Char) :=
  let back := trimEnd cs.reverse
  if back = ['/'] ∨ back = [] then none
  else some (trimEnd (back.dropWhile (· != '/'))).reverse

theorem parent?_shorter {cs p : List Char} (h : parent? cs = some p) : p.length < cs.length := by
  simp only [parent?] at h
  split at h
  · cases h
  · next hn =>
    simp only [not_or] at hn
    have hp := Option.some.inj h
    subst hp
    have h1 := trimEnd_length_le cs.reverse
    have h2 := trimEnd_length_le ((trimEnd cs.reverse).dropWhile (· != '/'))
    have h3 : ((trimEnd cs.reverse).dropWhile (· != '/')).length < (trimEnd cs.reverse).length := by
      cases hb : trimEnd cs.reverse with
      | nil => exact absurd hb hn.2
      | cons c rest =>
        have hc : c ≠ '/' := by
          rintro rfl
          exact hn.1 (trimEnd_eq_root (by rw [hb]; rfl))
        have := (List.dropWhile_suffix (l := rest) (· != '/')).length_le
        simp only [List.dropWhile_cons, bne_iff_ne, ne_eq, hc, not_false_eq_true, if_true,
          List.length_cons]
        omega
    simp only [List.length_reverse] at h1 ⊢
    omega

/-- The steps between the slashes, empty ones included. -/
def steps (path : String) : List String := (path.toList.splitOn '/').map String.ofList

def isAbsolute (path : String) : Bool := path.toList.head? = some '/'

end ProtoSchema.Path
