import ViewHydration.Handle

/-!
# Template programs

A template is a program of instructions, run once with the creation list when a view is created
and with the update list on every refresh. Most instruction arguments are literals or the value
of a variable: a loop variable of an enclosing `loop`, else a variable of the surrounding scope,
else the empty string. A count read from a variable is its text with blanks trimmed, read as an
unsigned decimal; text that is not a count reads as zero. Templates and local reference names are
literals: a template is named when the program is read, and a program that names an unknown one
is refused.

Besides the node instructions of the renderer a program can branch on a variable, repeat a block
with a loop variable counting `"0"`, `"1"`, …, look up local references, detach nodes and record
a probe of the render position.
-/

namespace ViewHydration

/-- A text argument: a literal, or the value of a variable. -/
inductive TextArg where
  | lit (s : String)
  | var (name : String)
  deriving DecidableEq, Repr, Inhabited

/-- A count argument: a literal, or a variable whose value is read as a count. -/
inductive CountArg where
  | lit (n : Nat)
  | var (name : String)
  deriving DecidableEq, Repr, Inhabited

/-- An instruction of a template program. -/
inductive Instr where
  | elementStart (index : CountArg) (tag : TextArg) (attrs refs : Option CountArg)
  | element (index : CountArg) (tag : TextArg) (attrs refs : Option CountArg)
  | elementEnd
  | elementContainerStart (index : CountArg) (attrs refs : Option CountArg)
  | elementContainer (index : CountArg) (attrs refs : Option CountArg)
  | elementContainerEnd
  | text (index : CountArg) (value : Option TextArg)
  | textInterpolate (index : CountArg) (value : TextArg)
  /-- Declares a view container anchored at `index` whose views instantiate `template`. -/
  | template (index : CountArg) (template : TViewId) (attrs refs : Option CountArg)
  | createEmbeddedView (slot position : CountArg) (template : Option TViewId)
  | removeEmbeddedView (slot position : CountArg)
  | clearContainer (slot : CountArg)
  | containerLength (slot : CountArg)
  | createContainerRef (index : CountArg)
  | i18nStart (index message : CountArg) (sub : Option CountArg)
  | i18n (index message : CountArg) (sub : Option CountArg)
  | i18nEnd
  | i18nAttributes (index attrs : CountArg)
  | i18nExp (value : TextArg)
  | i18nApply (index : CountArg)
  | localRef (name : String)
  | removeLocalRef (name : String)
  | removeSlotNode (index : CountArg)
  | probe
  /-- Runs `thenBranch` when the variable's value is not empty, else `elseBranch`. -/
  | cond (var : String) (thenBranch elseBranch : List Instr)
  /-- Runs `body` `count` times (at most 1000), binding `var` to the round number. -/
  | loop (count : CountArg) (var : String) (body : List Instr)
  deriving Repr, Inhabited

/-- The two instruction lists of a template. -/
structure Program where
  create : List Instr := []
  update : List Instr := []
  deriving Repr, Inhabited

end ViewHydration
