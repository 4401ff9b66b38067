import ViewHydration.Json.Reader
import ViewHydration.Json.Decode

/-!
# Render configuration

A configuration is fixed when a render context is built. `hydration` chooses, once for the whole
context, whether nodes are created or located in server-rendered markup. The host of a hydrated
root carries its hydration record in the attribute `nghAttribute`; an element with the attribute
`skipHydrationAttribute` opts its subtree out of hydration; `cleanupOnStable` removes server
views that were never claimed once the application reports that it is stable.

A configuration is read from JSON with the record rules of `Json.fields`: every field may be
missing and then takes its default.
-/

namespace ViewHydration

/-- How a render context materialises nodes and reads hydration records. -/
structure Config where
  hydration : Bool := false
  nghAttribute : String := "ngh"
  skipHydrationAttribute : String := "ngSkipHydration"
  cleanupOnStable : Bool := true
  deriving DecidableEq, Repr, Inhabited

namespace Config

/-- The default configuration with hydration switched on. -/
def hydrating : Config := { hydration := true }

/-- The field names, in declaration order. -/
def fieldNames : List String :=
  ["hydration", "nghAttribute", "skipHydrationAttribute", "cleanupOnStable"]

/-- Reads a configuration from a JSON value; `none` when a field has the wrong type. -/
def ofJson? (j : Json) : Option Config := do
  let fs ← Json.fields fieldNames j
  let d : Config := {}
  let hydration ← Json.fieldOr d.hydration Json.bool? (fs.getD 0 none)
  let ngh ← Json.fieldOr d.nghAttribute Json.string? (fs.getD 1 none)
  let skip ← Json.fieldOr d.skipHydrationAttribute Json.string? (fs.getD 2 none)
  let cleanup ← Json.fieldOr d.cleanupOnStable Json.bool? (fs.getD 3 none)
  pure { hydration := hydration, nghAttribute := ngh, skipHydrationAttribute := skip,
         cleanupOnStable := cleanup }

/-- Reads a configuration from JSON text; `none` for text that is not a configuration. -/
def read? (text : String) : Option Config := (Json.parse? text).bind ofJson?

end Config

end ViewHydration
