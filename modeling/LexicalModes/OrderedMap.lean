/-!
Maps from names to values, in ascending order of the names.

Names are compared by the code points of their characters. The entries are kept as a list, so the
order in which a map is gone through is the order of the list; that it ascends is part of the type
and kept by `insert`.
-/

namespace LexicalModes

/-- Named values in ascending order of their names, each name once. -/
structure OrderedMap (α : Type) where
  entries : List (String × α) := []
  ascending : (entries.map (·.1)).Pairwise (· < ·) := by simp
  deriving Repr, DecidableEq

namespace OrderedMap

variable {α : Type}

/-- The map without entries. -/
def empty : OrderedMap α := {}

/-- Put an entry in its place, instead of the one under the same name if there is one. -/
def insertEntry (name : String) (value : α) : List (String × α) → List (String × α)
  | [] => [(name, value)]
  | (other, old) :: rest =>
    if name < other then (name, value) :: (other, old) :: rest
    else if name = other then (name, value) :: rest
    else (other, old) :: insertEntry name value rest

/-- Of two different names one comes first. -/
theorem lt_of_not_lt {a b : String} (h : ¬a < b) (hne : a ≠ b) : b < a :=
  Decidable.byContradiction fun h' => hne (String.le_antisymm h' h)

/-- The names after an entry is put in its place are the names before and its own. -/
theorem mem_insertEntry {name other : String} {value : α} {entries : List (String × α)}
    (h : other ∈ (insertEntry name value entries).map (·.1)) :
    other = name ∨ other ∈ entries.map (·.1) := by
  induction entries with
  | nil => simpa [insertEntry] using h
  | cons e rest ih =>
    obtain ⟨first, old⟩ := e
    simp only [insertEntry] at h
    split at h
    · simpa using h
    · split at h
      · simp only [List.map_cons, List.mem_cons] at h ⊢
        exact h.imp id .inr
      · simp only [List.map_cons, List.mem_cons] at h ⊢
        rcases h with h | h
        · exact .inr (.inl h)
        · exact (ih h).imp id .inr

/-- An entry put in its place keeps the names in ascending order. -/
theorem ascending_insertEntry (name : String) (value : α) {entries : List (String × α)}
    (h : (entries.map (·.1)).Pairwise (· < ·)) :
    ((insertEntry name value entries).map (·.1)).Pairwise (· < ·) := by
  induction entries with
  | nil => simp [insertEntry]
  | cons e rest ih =>
    obtain ⟨first, old⟩ := e
    obtain ⟨hall, hrest⟩ := List.pairwise_cons.1 h
    simp only [insertEntry]
    split
    case isTrue hlt =>
      refine List.pairwise_cons.2 ⟨fun other hmem => ?_, h⟩
      rcases List.mem_cons.1 hmem with rfl | hmem
      · exact hlt
      · exact String.lt_trans hlt (hall other hmem)
    case isFalse hlt =>
      split
      case isTrue heq =>
        exact heq ▸ h
      case isFalse hne =>
        refine List.pairwise_cons.2 ⟨fun other hmem => ?_, ih hrest⟩
        rcases mem_insertEntry hmem with rfl | hmem
        · exact lt_of_not_lt hlt hne
        · exact hall other hmem

/-- The map with this value under this name. -/
def insert (m : OrderedMap α) (name : String) (value : α) : OrderedMap α :=
  ⟨insertEntry name value m.entries, ascending_insertEntry name value m.ascending⟩

/-- The map of the given entries, later ones winning over earlier ones of the same name. -/
def ofList (entries : List (String × α)) : OrderedMap α :=
  entries.foldl (fun m e => m.insert e.1 e.2) empty

/-- The value under a name. -/
def get? (m : OrderedMap α) (name : String) : Option α := m.entries.lookup name

/-- Names in ascending order. -/
def keys (m : OrderedMap α) : List String := m.entries.map (·.1)

/-- Values in ascending order of their names. -/
def values (m : OrderedMap α) : List α := m.entries.map (·.2)

/-- Number of entries. -/
def size (m : OrderedMap α) : Nat := m.entries.length

/-- The same names with values changed one by one. -/
def map {β : Type} (f : String → α → β) (m : OrderedMap α) : OrderedMap β :=
  ⟨m.entries.map fun e => (e.1, f e.1 e.2), by
    simpa [Function.comp_def] using m.ascending⟩

end OrderedMap

end LexicalModes
