import LexicalModes.Proofs.Dangling
import LexicalModes.Proofs.Definitions

/-!
Loading a definition. The places of the root and of the declared modes are reserved first, and
overwritten one by one while the modes written in place are added behind them. Overwriting a
reserved place has no bearing on what is added behind (`Loads.set`), so the whole conversion is one
that starts with all places filled (`Grammar.fill`). Then every number leads somewhere, and the
grammar read back from its root and from the declared modes is the definition it was loaded from.
-/

namespace LexicalModes

/-! ### Numbers that lead nowhere -/

theorem references_subset_variantReferences {variants : List Mode} {variant : Mode}
    (h : variant ∈ variants) : variant.references ⊆ variantReferences variants := by
  induction variants with
  | nil => cases h
  | cons first rest ih =>
      rw [variantReferences]
      rcases List.mem_cons.1 h with rfl | h
      · exact List.subset_append_left _ _
      · exact List.Subset.trans (ih h) (List.subset_append_right _ _)

namespace Mode

variable {mode : Mode} {id : Nat}

theorem mem_references : id ∈ mode.references ↔
    mode.RefersTo id ∨ id ∈ variantReferences mode.variants := by
  obtain ⟨traits, contains, variants, starts⟩ := mode
  have hentry : id ∈ contains.filterMap Contained.id? ↔ .mode id ∈ contains := by
    rw [List.mem_filterMap]
    constructor
    · rintro ⟨entry, hentry, hid⟩
      cases entry with
      | this => cases hid
      | mode other =>
          cases hid
          exact hentry
    · exact fun h => ⟨.mode id, h, rfl⟩
  rw [references, List.mem_append, List.mem_append, hentry, Option.mem_toList, RefersTo]
  exact or_right_comm

/-- A variant laid over a mode refers to nothing that does not occur in the mode. -/
theorem references_overlay_subset {variant : Mode} (h : variant ∈ mode.variants) :
    (mode.overlay variant).references ⊆ mode.references := by
  have hvariant : ∀ {id : Nat}, variant.RefersTo id → id ∈ mode.references := fun hid =>
    mem_references.2 (.inr (references_subset_variantReferences h (mem_references.2 (.inl hid))))
  intro id hid
  rcases mem_references.1 hid with (hcontains | hstarts) | hvariants
  · rw [overlay] at hcontains
    dsimp only at hcontains
    split at hcontains
    · exact mem_references.2 (.inl (.inl hcontains))
    · exact hvariant (.inl hcontains)
  · rw [overlay] at hstarts
    dsimp only at hstarts
    rcases Option.or_eq_some_iff.1 hstarts with hstarts | ⟨-, hstarts⟩
    · exact hvariant (.inr hstarts)
    · exact mem_references.2 (.inl (.inr hstarts))
  · cases hvariants

end Mode

namespace Grammar

variable {g : Grammar}

theorem references_subset_of_get? {id : Nat} {mode : Mode} (h : g.get? id = some mode) :
    mode.references ⊆ g.references := by
  rw [get?, ← Array.getElem?_toList] at h
  exact fun other hother => List.mem_flatMap.2 ⟨mode, List.mem_of_getElem? h, hother⟩

/-- Whatever is reached from the root refers only to numbers that occur in the grammar. -/
theorem spreads_references (g : Grammar) : g.Spreads (·.references ⊆ g.references) where
  root := fun _ => references_subset_of_get?
  contained := fun _ _ _ _ _ hnext _ => references_subset_of_get? hnext
  variant := fun _ _ _ _ _ _ hnext hvariant =>
    List.Subset.trans (Mode.references_overlay_subset hvariant) (references_subset_of_get? hnext)
  follower := fun _ _ _ _ _ hnext => references_subset_of_get? hnext

theorem compile_ne_danglingMode {ci : Bool} (h : ∀ id : Nat, id ∈ g.references → id < g.size)
    (id : ModeId) : g.compile ci ≠ .error (.danglingMode id) := by
  intro hcompile
  obtain ⟨hnone, mode, hmode, hid⟩ := g.spreads_references.founded_compile _ hcompile
  have hlt := h id (hmode (Mode.mem_references.2 (.inl hid)))
  rw [get?, Array.getElem?_eq_none_iff] at hnone
  exact absurd hlt (Nat.not_lt.2 hnone)

/-! ### Filling places -/

theorem toList_set (g : Grammar) (id : ModeId) (mode : Mode) :
    (g.set id mode).modes.toList = g.modes.toList.set id mode := by
  rw [set, Array.toList_setIfInBounds]

theorem size_set (g : Grammar) (id : ModeId) (mode : Mode) : (g.set id mode).size = g.size := by
  rw [size, set, Array.size_setIfInBounds]
  rfl

theorem inPlace_set {names : List String} {id : Nat} (hid : id ≤ names.length) (mode : Mode) :
    (g.set id mode).inPlace names = g.inPlace names := by
  rw [inPlace, toList_set, List.drop_set, if_pos (by omega)]
  rfl

/-- Replace modes one after another, beginning with the given number. -/
def fill (g : Grammar) (id : ModeId) : List Mode → Grammar
  | [] => g
  | mode :: rest => (g.set id mode).fill (id + 1) rest

theorem size_fill (g : Grammar) (id : ModeId) (modes : List Mode) :
    (g.fill id modes).size = g.size := by
  induction modes generalizing g id with
  | nil => rfl
  | cons mode rest ih =>
      rw [fill, ih, size_set]

theorem toList_fill {modes before slots : List Mode} (hg : g.modes.toList = before ++ slots)
    (hlength : slots.length = modes.length) :
    (g.fill before.length modes).modes.toList = before ++ modes := by
  induction modes generalizing g before slots with
  | nil =>
      rw [List.eq_nil_of_length_eq_zero hlength] at hg
      exact hg
  | cons mode rest ih =>
      cases slots with
      | nil => cases hlength
      | cons slot slots =>
          have hset : (g.set before.length mode).modes.toList = before ++ [mode] ++ slots := by
            rw [toList_set, hg, List.set_append_right _ _ (Nat.le_refl _), Nat.sub_self,
              List.set_cons_zero, List.append_assoc]
            rfl
          have hfill := ih hset (Nat.succ.inj hlength)
          rw [List.length_append] at hfill
          rw [fill]
          exact hfill.trans (List.append_assoc _ _ _)

end Grammar

/-! ### Converting into the reserved places -/

namespace Loads

variable {names : List String} {g g' : Grammar} {added : List Mode} {found : List ModeId}
  {ReadBack : (ModeId → Option Reference) → Prop}

/-- A reserved place may be overwritten before or after. -/
theorem set (h : Loads names g g' added found ReadBack) (hg : names.length < g.size) (id : Nat)
    (hid : id ≤ names.length) (mode : Mode) :
    Loads names (g.set id mode) (g'.set id mode) added found ReadBack where
  modes := by
    have hlt : id < g.modes.toList.length := by
      rw [Array.length_toList]
      exact Nat.lt_of_le_of_lt hid hg
    rw [Grammar.toList_set, Grammar.toList_set, h.modes, List.set_append_left _ _ hlt]
  fresh := by
    rw [Grammar.size_set]
    exact h.fresh
  bounded := by
    rw [Grammar.size_set]
    exact h.bounded
  readBack := by
    rw [Grammar.inPlace_set hid, Grammar.size_set]
    exact h.readBack

theorem fill (h : Loads names g g' added found ReadBack) (hg : names.length < g.size) (id : Nat)
    (modes : List Mode) (hid : id + modes.length ≤ names.length + 1) :
    Loads names (g.fill id modes) (g'.fill id modes) added found ReadBack := by
  induction modes generalizing g g' id with
  | nil => exact h
  | cons mode rest ih =>
      rw [List.length_cons] at hid
      have hset := h.set hg id (by omega) mode
      exact ih hset (by rwa [Grammar.size_set]) (id + 1) (by omega)

end Loads

theorem lookup_zip_range'_append {before rest : List String} {name : String}
    (h : name ∉ before) (start : Nat) :
    ((before ++ name :: rest).zip
      (List.range' start (before ++ name :: rest).length)).lookup name =
        some (start + before.length) := by
  induction before generalizing start with
  | nil =>
      rw [List.nil_append, List.length_cons, List.range'_succ, List.zip_cons_cons,
        List.lookup_cons_self]
      rfl
  | cons first before ih =>
      rw [List.mem_cons, not_or] at h
      have hne : (name == first) = false := beq_false_of_ne h.1
      rw [List.cons_append, List.length_cons, List.range'_succ, List.zip_cons_cons,
        List.lookup_cons, hne]
      calc
        _ = some (start + 1 + before.length) := ih h.2 (start + 1)
        _ = some (start + (first :: before).length) := by
          rw [List.length_cons, Nat.add_assoc, Nat.add_comm 1]

namespace LanguageDefinition

/-- **Converting the declared modes**, by induction on those that remain. -/
theorem loads_convertNamed {names : List String} (hnames : names.Nodup) {g g' : Grammar}
    (hg : names.length < g.size) {before : List String}
    {entries : List (String × ModeDefinition)}
    (hentries : names = before ++ entries.map (·.1))
    (h : convertNamed (numbered names) g entries = .ok g') :
    ∃ modes added, modes.length = entries.length ∧
      added.length = inlineCountInside (entries.map (·.2)) ∧
      Loads names (g.fill (before.length + 1) modes) g' added (modes.flatMap Mode.references)
        fun reference => List.Forall₂
          (fun mode definition => mode.unfoldWith reference = some definition) modes
          (entries.map (·.2)) := by
  induction entries generalizing g before with
  | nil =>
      cases h
      exact ⟨[], [], rfl, rfl, .unchanged (fun id hid => by cases hid) hg fun _ _ _ => .nil⟩
  | cons entry rest ih =>
      obtain ⟨name, definition⟩ := entry
      rw [convertNamed] at h
      obtain ⟨⟨g₁, mode⟩, hmode, h⟩ := bind_eq_ok.1 h
      have hfresh : name ∉ before := by
        rw [hentries, List.map_cons, List.nodup_append] at hnames
        exact fun hmem => hnames.2.2 name hmem name List.mem_cons_self rfl
      have hlookup : (numbered names).lookup name = some (before.length + 1) := by
        rw [numbered, hentries, List.map_cons, lookup_zip_range'_append hfresh, Nat.add_comm]
      dsimp only at h
      rw [hlookup] at h
      obtain ⟨first, hfirst, hloadsFirst⟩ := definition.loads_convert hg hmode
      have hlength : names.length = before.length + (rest.length + 1) := by
        rw [hentries, List.length_append, List.length_map, List.length_cons]
      have hg₁ : names.length < (g₁.set (before.length + 1) mode).size := by
        rw [Grammar.size_set]
        exact hloadsFirst.lt_size hg
      have hrest : names = (before ++ [name]) ++ rest.map (·.1) := by
        rw [hentries, List.append_assoc]
        rfl
      obtain ⟨others, second, hothers, hsecond, hloadsSecond⟩ := ih hg₁ hrest h
      rw [List.length_append] at hloadsSecond
      -- the places of this mode and of the others are filled before anything is converted
      have hfilled : Loads names (g.fill (before.length + 1) (mode :: others))
          ((g₁.set (before.length + 1) mode).fill (before.length + 1 + 1) others) first
          mode.references fun reference => mode.unfoldWith reference = some definition := by
        apply hloadsFirst.fill hg
        rw [List.length_cons, hothers]
        omega
      refine ⟨mode :: others, first ++ second, ?_, ?_, ?_⟩
      · rw [List.length_cons, List.length_cons, hothers]
      · rw [List.length_append, hfirst, hsecond, List.map_cons, inlineCountInside]
      · have hsize : names.length < (g.fill (before.length + 1) (mode :: others)).size := by
          rwa [Grammar.size_fill]
        rw [List.flatMap_cons]
        refine (hfilled.append hloadsSecond hsize).imp ?_
        rintro reference ⟨hmode, hothers⟩
        exact .cons hmode hothers

theorem toList_places (d : LanguageDefinition) :
    d.places.modes.toList = [({} : Mode)] ++ List.replicate d.modes.size ({} : Mode) := by
  have hadded : ∀ (names : List String) (g : Grammar),
      (names.foldl (fun g _ => (g.add {}).1) g).modes.toList =
        g.modes.toList ++ List.replicate names.length ({} : Mode) := by
    intro names
    induction names with
    | nil => exact fun g => (List.append_nil _).symm
    | cons name rest ih =>
        intro g
        rw [List.foldl_cons, ih, Grammar.add, Array.toList_push, List.append_assoc,
          List.length_cons, List.replicate_succ]
        rfl
  rw [places, hadded, OrderedMap.keys, List.length_map]
  rfl

theorem nodup_keys (d : LanguageDefinition) : d.modes.keys.Nodup :=
  d.modes.ascending.imp String.ne_of_lt

/-- The grammar is the one that the definition describes: the root, the declared modes in the order
of their names, and behind them one mode for each that is written in place. The numbers of the
latter occur once each, no number is out of range, and unfolding the root and the declared modes
gives them back as they were written. -/
structure Describes (d : LanguageDefinition) (g : Grammar) : Prop where
  size : g.size = 1 + d.modes.size + d.inlineCount
  root : g.unfold d.modes.keys Grammar.rootId = some d.root
  declared : ∀ (index : Nat) (name : String) (definition : ModeDefinition),
    d.modes.entries[index]? = some (name, definition) →
      g.unfold d.modes.keys (index + 1) = some definition
  inPlace : (g.references.filter (d.modes.size < ·)).Perm
    (List.range' (1 + d.modes.size) d.inlineCount)
  bounded : ∀ id : Nat, id ∈ g.references → 0 < id ∧ id < g.size

theorem describes_of_loads {d : LanguageDefinition} {g g' : Grammar} {root : Mode}
    {modes added : List Mode} (hg : g.modes.toList = root :: modes)
    (hmodes : modes.length = d.modes.size) (hadded : added.length = d.inlineCount)
    (h : Loads d.modes.keys g g' added (modes.flatMap Mode.references ++ root.references)
      fun reference => List.Forall₂
        (fun mode definition => mode.unfoldWith reference = some definition) modes d.modes.values ∧
        root.unfoldWith reference = some d.root) : d.Describes g' := by
  have hkeys : d.modes.keys.length = d.modes.size := List.length_map _
  have hsize : g.size = 1 + d.modes.size := by
    rw [Grammar.size, ← Array.length_toList, hg, List.length_cons, hmodes, Nat.add_comm]
  have hlist : g'.modes.toList = root :: (modes ++ added) := by
    rw [h.modes, hg]
    rfl
  have hreferences : g'.references.Perm (added.flatMap Mode.references ++
      (modes.flatMap Mode.references ++ root.references)) := by
    rw [Grammar.references, hlist, List.flatMap_cons, List.flatMap_append, ← List.append_assoc]
    refine List.perm_append_comm.trans (List.Perm.append_left _ ?_)
    exact List.perm_append_comm
  obtain ⟨hdeclared, hroot⟩ := h.readBack g' g'.size (List.prefix_refl _) (Nat.le_refl _)
  constructor
  case size => rw [h.size, hsize, hadded]
  case root =>
    have hget : g'.get? Grammar.rootId = some root := by
      rw [Grammar.get?, ← Array.getElem?_toList, hlist]
      rfl
    rw [Grammar.unfold, hget]
    exact hroot
  case declared =>
    intro index name definition hentry
    have hvalue : d.modes.values[index]? = some definition := by
      rw [OrderedMap.values, List.getElem?_map, hentry]
      rfl
    obtain ⟨hlt, hvalue⟩ := List.getElem?_eq_some_iff.1 hvalue
    have hmode : index < modes.length := by
      rw [hdeclared.length_eq]
      exact hlt
    have hget : g'.get? (index + 1) = some modes[index] := by
      rw [Grammar.get?, ← Array.getElem?_toList, hlist, List.getElem?_cons_succ,
        List.getElem?_append_left hmode, List.getElem?_eq_getElem hmode]
    have hread := hdeclared.get hmode hlt
    rw [Grammar.unfold, hget, ← hvalue]
    exact hread
  case inPlace =>
    have hfresh := h.fresh
    rw [hkeys, hsize, hadded] at hfresh
    exact (hreferences.filter _).trans hfresh
  case bounded => exact fun id hid => h.bounded id (hreferences.mem_iff.1 hid)

/-- **Loading is faithful.** The grammar of a loaded language is the one that its definition
describes, and compiling it never comes upon a number that leads nowhere. -/
theorem describes_of_toLanguage (d : LanguageDefinition) {language : Language}
    (h : d.toLanguage = .ok language) :
    d.Describes language.grammar ∧ ∀ id, language.compile ≠ .error (.danglingMode id) := by
  have hkeys : d.modes.keys.length = d.modes.size := List.length_map _
  have hnames : d.modeNames = numbered d.modes.keys := by
    rw [modeNames, numbered, hkeys]
  have hplaces : d.modes.keys.length < d.places.size := by
    rw [Grammar.size, ← Array.length_toList, toList_places, List.length_append,
      List.length_replicate, hkeys]
    exact Nat.lt_add_of_pos_left Nat.zero_lt_one
  rw [toLanguage, hnames] at h
  obtain ⟨g₁, hnamed, h⟩ := bind_eq_ok.1 h
  obtain ⟨⟨g₂, root⟩, hroot, h⟩ := bind_eq_ok.1 h
  cases h
  have hentries : d.modes.keys = [] ++ d.modes.entries.map (·.1) := rfl
  obtain ⟨modes, first, hmodes, hfirst, hloadsNamed⟩ :=
    loads_convertNamed d.nodup_keys hplaces hentries hnamed
  have hfilled : d.modes.keys.length < (d.places.fill 1 modes).size := by
    rwa [Grammar.size_fill]
  have hg₁ : d.modes.keys.length < g₁.size := hloadsNamed.lt_size hfilled
  obtain ⟨second, hsecond, hloadsRoot⟩ := d.root.loads_convert hg₁ hroot
  have hloads := (hloadsNamed.append hloadsRoot hfilled).set hfilled Grammar.rootId
    (Nat.zero_le _) root
  have hlist : ((d.places.fill 1 modes).set Grammar.rootId root).modes.toList = root :: modes := by
    have hslots : (List.replicate d.modes.size ({} : Mode)).length = modes.length := by
      rw [List.length_replicate, hmodes]
      rfl
    have hfill : (d.places.fill 1 modes).modes.toList = [({} : Mode)] ++ modes :=
      Grammar.toList_fill d.toList_places hslots
    rw [Grammar.toList_set, hfill]
    rfl
  have hdescribes : d.Describes (g₂.set Grammar.rootId root) := by
    refine describes_of_loads hlist hmodes ?_ hloads
    rw [List.length_append, hfirst, hsecond]
    rfl
  exact ⟨hdescribes, Grammar.compile_ne_danglingMode fun id hid => (hdescribes.bounded id hid).2⟩

/-- A mode named `self` is declared, which contains itself and is followed by the mode of that
name. -/
def sampleDefinition : LanguageDefinition where
  name := "sample"
  modes := .ofList [
    ("string", { contains := [.inline { traits := { beginPattern := some "\\\\." } }] }),
    ("self", { contains := [.named "self", .named "string"], starts := some (.named "self") }),
    ("block", {
      contains := [.named "block"]
      variants := [
        { traits := { beginPattern := some "<<" }
          contains := [.inline { contains := [.named "string"] }] },
        { traits := { beginPattern := some "begin" } }]
      starts := some (.inline { starts := some (.inline { contains := [.named "self"] }) }) })]
  root := { contains := [.named "block", .named "self", .named "string"] }

theorem describes_of_toLanguage_sample : ∃ language,
    sampleDefinition.toLanguage = .ok language ∧ language.grammar.size = 8 ∧
    language.grammar.unfold ["block", "self", "string"] 2 = some
      { contains := [.named "self", .named "string"], starts := some (.named "self") } ∧
    (language.grammar.references.filter (3 < ·)).Perm [4, 5, 6, 7] ∧
    language.compile ≠ .error (.danglingMode 8) := by
  obtain ⟨language, h⟩ := exists_of_isOk
    (show sampleDefinition.toLanguage.isOk = true by decide +kernel)
  obtain ⟨hdescribes, hcompile⟩ := describes_of_toLanguage sampleDefinition h
  have hkeys : sampleDefinition.modes.keys = ["block", "self", "string"] := by decide +kernel
  have hself := hdescribes.declared 1 "self" _ rfl
  rw [hkeys] at hself
  exact ⟨language, h, hdescribes.size, hself, hdescribes.inPlace, hcompile 8⟩

end LanguageDefinition

end LexicalModes
