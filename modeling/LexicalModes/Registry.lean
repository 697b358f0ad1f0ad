import LexicalModes.Compiled

/-!
The languages that are known by name.

Languages are kept by their lower-cased name, and aliases lead to such names. A later registration
replaces an earlier one of the same name and takes over the aliases it lists. Names win over
aliases.
-/

namespace LexicalModes

open LexicalModes.Unicode

/-- A registered language with its compiled grammar, which is worked out when it is first needed. -/
structure Entry where
  language : Language
  grammar : Thunk (Except CompileError CompiledGrammar)
  grammar_eq : grammar.get = language.compile
  /-- Whether the language has been compiled with success. -/
  isCompiled : Bool := false

namespace Entry

/-- A language that has not been used yet. -/
def ofLanguage (language : Language) : Entry where
  language := language
  grammar := Thunk.mk fun _ => language.compile
  grammar_eq := rfl

/-- The entry after its language has been compiled. -/
def compiled (e : Entry) : Entry :=
  match e.grammar.get with
  | .ok _ => { e with isCompiled := true }
  | .error _ => e

end Entry

/-- Languages by lower-cased name, and the names that aliases lead to. -/
structure Registry where
  languages : OrderedMap Entry := {}
  aliases : List (String × String) := []

namespace Registry

/-- No language. -/
def empty : Registry := {}

/-- Add a language in the place of one with the same name. -/
def register (r : Registry) (language : Language) : Registry :=
  let name := lowercase language.name
  { languages := r.languages.insert name (.ofLanguage language)
    aliases := language.aliases.foldl (fun known other => (lowercase other, name) :: known)
      r.aliases }

/-- The registered name that a name or alias leads to. -/
def resolve? (r : Registry) (name : String) : Option String :=
  let key := lowercase name
  if (r.languages.get? key).isSome then some key else r.aliases.lookup key

/-- The entry under a registered name, a name or an alias. -/
def find? (r : Registry) (name : String) : Option (String × Entry) := do
  let key ← r.resolve? name
  return (key, ← r.languages.get? key)

/-- The language under a name or alias. -/
def get? (r : Registry) (name : String) : Option Language := (r.find? name).map (·.2.language)

/-- Registered names, in ascending order. -/
def names (r : Registry) : List String := r.languages.keys

/-- Number of languages. -/
def size (r : Registry) : Nat := r.languages.size

/-- The registry after the languages with these registered names have been used. -/
def markUsed (r : Registry) (used : List String) : Registry :=
  { r with
    languages := r.languages.map fun name e => if used.contains name then e.compiled else e }

end Registry

end LexicalModes
