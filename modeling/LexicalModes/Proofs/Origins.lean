import LexicalModes.Compiled

/-!
Where the modes of a compiled grammar come from. Following the lists of contained modes from the
root on, with every copy of a mode that ends with its parent made anew, unfolds the declarations
into a graph, perhaps an infinite one, whose nodes are the `Origin`s. It is defined by the grammar
alone. A compiled grammar is a finite part of it: `Origin.contents` and `Origin.follower` are its
edges, and `Origin.Encloses` says which modes a mode can be compiled against.
-/

namespace LexicalModes

/-- Where a compiled mode comes from. -/
inductive Origin
  /-- The declaration with this number. -/
  | declared (id : ModeId)
  /-- The variant in this place of a declaration, laid over it. -/
  | variant (id : ModeId) (place : Nat)
  /-- A copy of the mode in this place of the owner's list of contained modes. -/
  | copy (owner : Origin) (place : Nat)
  deriving DecidableEq, Repr

namespace Origin

variable (g : Grammar)

/-- The mode that is compiled for an origin. -/
def source : Origin → Option Mode
  | .declared id => g.get? id
  | .variant id place => do
    let mode ← g.get? id
    let variant ← mode.variants[place]?
    return mode.overlay variant
  | .copy owner place => do
    let mode ← owner.source
    match mode.contains[place]? with
    | some (.mode id) => g.get? id
    | _ => none

/-- What an entry in some place of a list of contained modes stands for. -/
def standsFor (owner : Origin) (place : Nat) : Contained → List Origin
  | .this => [owner]
  | .mode id =>
    match g.get? id with
    | none => [.declared id]
    | some mode =>
      if !mode.variants.isEmpty then (List.range mode.variants.length).map (.variant id)
      else if mode.flags.endsWithParent then [.copy owner place]
      else [.declared id]

/-- What entries stand for, the first of which is in the given place. -/
def standForAll (owner : Origin) : Nat → List Contained → List Origin
  | _, [] => []
  | place, entry :: rest => standsFor g owner place entry ++ standForAll owner (place + 1) rest

/-- The origins of the modes inside. -/
def contents (p : Origin) : List Origin :=
  ((p.source g).map fun mode => standForAll g p 0 mode.contains).getD []

/-- The origin of the mode that follows when this one ends. -/
def follower (p : Origin) : Option Origin :=
  (p.source g).bind fun mode => mode.starts.map .declared

/-- What a mode can be compiled against: nothing for the root, a mode that contains it, or what the
mode it follows can be compiled against. -/
inductive Encloses : Option Origin → Origin → Prop
  | root : Encloses none (.declared Grammar.rootId)
  | contains {p q : Origin} : q ∈ p.contents g → Encloses (some p) q
  | follows {e : Option Origin} {p q : Origin} :
      Encloses e p → p.follower g = some q → Encloses e q

variable {g}

theorem contents_eq {p : Origin} {mode : Mode} (h : p.source g = some mode) :
    p.contents g = standForAll g p 0 mode.contains := by
  simp [contents, h]

theorem follower_eq {p : Origin} {mode : Mode} (h : p.source g = some mode) :
    p.follower g = mode.starts.map .declared := by
  simp [follower, h]

/-- Every place stands for what its own entry does. -/
theorem standForAll_eq_flatMap (owner : Origin) (place : Nat) (entries : List Contained) :
    standForAll g owner place entries =
      (entries.zipIdx place).flatMap fun (entry, place) => standsFor g owner place entry := by
  induction entries generalizing place with
  | nil => rfl
  | cons entry rest ih => rw [standForAll, ih, List.zipIdx_cons, List.flatMap_cons]

theorem standsFor_subset_contents {p q : Origin} {mode : Mode} {place : Nat} {entry : Contained}
    (hsource : p.source g = some mode) (hentry : mode.contains[place]? = some entry)
    (hq : q ∈ standsFor g p place entry) : q ∈ p.contents g := by
  rw [contents_eq hsource, standForAll_eq_flatMap, List.mem_flatMap]
  exact ⟨(entry, place), List.mem_zipIdx_iff_getElem?.2 hentry, hq⟩

theorem map_source_variants {id : ModeId} {mode : Mode} (h : g.get? id = some mode) :
    ((List.range mode.variants.length).map (Origin.variant id)).map (source g) =
      (mode.variants.map mode.overlay).map some := by
  apply List.ext_getElem?
  intro i
  by_cases hi : i < mode.variants.length
  · simp [source, h, hi]
  · simp [Nat.le_of_not_lt hi]

end Origin

/-! ### End sources -/

theorem isEmpty_intercalate {texts : List String} (h : ∀ text ∈ texts, text ≠ "") :
    ("|".intercalate texts).isEmpty = texts.isEmpty := by
  cases texts with
  | nil => rfl
  | cons first others =>
      have hfirst := h first (by simp)
      cases others with
      | nil => simpa using hfirst
      | cons second others => simp [String.intercalate_cons_cons, hfirst]

theorem nonempty?_eq_some {text : Option String} {source : String} :
    nonempty? text = some source ↔ text = some source ∧ source ≠ "" := by
  simp [nonempty?]

namespace Mode

theorem beginSource_ne_empty (mode : Mode) : mode.beginSource ≠ "" := by
  unfold beginSource
  split
  · simp
  · rename_i h
    exact (nonempty?_eq_some.1 h).2
  · simp [anywhere]

theorem endSource?_ne_empty {mode : Mode} {source : String} (h : mode.endSource? = some source) :
    source ≠ "" := by
  unfold endSource? at h
  split at h
  · cases h
    exact mode.beginSource_ne_empty
  · split at h
    · rename_i hend
      cases h
      exact (nonempty?_eq_some.1 hend).2
    · split at h
      · cases h
      · cases h
        simp [anywhere]

/-- Ends are joined by bars one by one on the way down from the modes they come from. -/
theorem terminatorEndWith_intercalate (mode : Mode) {ends : List String}
    (hends : ∀ source ∈ ends, source ≠ "") :
    mode.terminatorEndWith ("|".intercalate ends) = "|".intercalate
      (mode.endSource?.toList ++ if mode.flags.endsWithParent then ends else []) := by
  cases hshared : mode.flags.endsWithParent with
  | false => cases hown : mode.endSource? <;> simp [terminatorEndWith, hshared, hown]
  | true =>
      cases ends with
      | nil => cases hown : mode.endSource? <;> simp [terminatorEndWith, hshared, hown]
      | cons first others =>
          have hjoined : ("|".intercalate (first :: others)).isEmpty = false :=
            isEmpty_intercalate hends
          cases hown : mode.endSource? with
          | none => simp [terminatorEndWith, hshared, hown, hjoined]
          | some own =>
              simp only [terminatorEndWith, hshared, hown, hjoined, Option.getD_some,
                Option.isSome_some, Option.toList_some, Bool.not_true, Bool.or_self, if_true,
                Bool.false_eq_true, if_false, List.cons_append, List.nil_append]
              rw [String.intercalate_cons_cons]

end Mode

end LexicalModes
