import ViewHydration.Template.Program
import ViewHydration.Text.Blank

/-!
# Scopes of template programs

A program runs in a scope: the variables set from outside and the loop variables of the
enclosing loops, innermost first. A variable is looked up among the loop variables first, then
among the outside variables; an unknown variable is the empty string. Loop variables do not reach
into the template passes a program starts: each pass runs its template's program with the outside
variables only.
-/

namespace ViewHydration

/-- What a running program can look up. -/
structure Scope where
  vars : List (String × String) := []
  locals : List (String × String) := []
  deriving Repr, Inhabited

namespace Scope

/-- The value of a variable. -/
def lookup (s : Scope) (name : String) : String :=
  match s.locals.lookup name with
  | some v => v
  | none => (s.vars.lookup name).getD ""

/-- Reads a count from text: blanks trimmed, then an optional `+` and ASCII digits below
`2 ^ 64`; anything else reads as zero. -/
def readCount (text : String) : Nat :=
  let cs := (Text.trimBlanks text).toList
  let cs := match cs with
    | '+' :: r => r
    | r => r
  if cs.isEmpty || !cs.all (fun c => '0' ≤ c && c ≤ '9') then 0
  else
    let n := cs.foldl (fun n c => n * 10 + (c.toNat - 48)) 0
    if n < Nat.pow 2 64 then n else 0

/-- The value of a text argument. -/
def text (s : Scope) : TextArg → String
  | .lit v => v
  | .var name => s.lookup name

/-- The value of a count argument. -/
def count (s : Scope) : CountArg → Nat
  | .lit n => n
  | .var name => readCount (s.lookup name)

/-- The scope with one more loop variable. -/
def bind (s : Scope) (name value : String) : Scope := { s with locals := (name, value) :: s.locals }

/-- The scope a template pass runs in: the outside variables, with no loop variables, since a
loop variable belongs to the program text that binds it and a template pass runs another
program. -/
def forPass (s : Scope) : Scope := { s with locals := [] }

end Scope

end ViewHydration
