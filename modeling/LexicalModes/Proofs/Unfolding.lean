import LexicalModes.Proofs.Workbench

/-!
A compiled grammar is a faithful unfolding of the declared one. A `Layout` says which mode every
index comes from and which indices stand for declared modes, for variants and for copies, and
`Unfolds` says that lists of contained modes, following modes and traits agree with it. The layout
of a compiled grammar is read off the origins of its modes, where an index and an origin determine
each other.
-/

namespace LexicalModes

/-- Where the modes of a grammar are among the compiled modes. -/
structure Layout where
  /-- The mode that an index comes from. -/
  source : ModeIndex → Mode
  /-- The one index of a declared mode. -/
  shared : ModeId → ModeIndex
  /-- The indices of the variants of a mode. -/
  variants : ModeId → List ModeIndex
  /-- The index of the copy for a place in the list of a mode. -/
  copy : ModeIndex → Nat → ModeIndex

/-- The indices that an entry stands for, in a place of the list of a mode. -/
def Layout.indices (l : Layout) (g : Grammar) (owner : ModeIndex) (place : Nat) :
    Contained → List ModeIndex
  | .this => [owner]
  | .mode id =>
    match g.get? id with
    | none => [l.shared id]
    | some mode =>
      if !mode.variants.isEmpty then l.variants id
      else if mode.flags.endsWithParent then [l.copy owner place]
      else [l.shared id]

/-- The traits of a compiled mode are those of a declared or overlaid one. -/
structure CompiledMode.TraitsOf (c : CompiledMode) (caseInsensitive : Bool) (mode : Mode) :
    Prop where
  className : c.className = mode.className.filter (!·.isEmpty)
  relevance : c.relevance = mode.relevance.getD 1
  subLanguage : c.subLanguage = mode.subLanguage
  flags : c.flags = mode.flags
  beginsWithKeywords : c.beginsWithKeywords = mode.beginKeywords.isSome
  keywords : (mode.keywords.or (mode.beginKeywords.map .plain)).mapM (·.table caseInsensitive) =
    .ok c.keywords

/-- The compiled modes are laid out like this. -/
structure CompiledGrammar.Unfolds (compiled : CompiledGrammar) (g : Grammar) (l : Layout) :
    Prop where
  root : 0 < compiled.size ∧ l.source CompiledGrammar.rootIndex = g.root
  /-- Every index comes from a declared mode or from a variant laid over one. -/
  sources : ∀ index < compiled.size,
    (∃ id, g.get? id = some (l.source index)) ∨
    ∃ id mode, ∃ variant ∈ mode.variants,
      g.get? id = some mode ∧ l.source index = mode.overlay variant
  traits : ∀ index < compiled.size,
    (compiled.mode index).TraitsOf compiled.caseInsensitive (l.source index)
  contains : ∀ index < compiled.size, (compiled.mode index).contains =
    (l.source index).contains.zipIdx.flatMap fun (entry, place) => l.indices g index place entry
  starts : ∀ index < compiled.size,
    (compiled.mode index).starts = (l.source index).starts.map l.shared
  /-- What starts refers to is the declaration itself. -/
  starts_source : ∀ index < compiled.size, ∀ id, (l.source index).starts = some id →
    g.get? id = some (l.source (l.shared id))
  /-- What an entry refers to is declared, and its indices come from the declaration or from its
  variants in order. -/
  entry_source : ∀ index < compiled.size, ∀ place id,
    (l.source index).contains[place]? = some (.mode id) →
    ∃ mode, g.get? id = some mode ∧
      (mode.variants ≠ [] → (l.variants id).map l.source = mode.variants.map mode.overlay) ∧
      (mode.variants = [] → mode.flags.endsWithParent = true →
        l.source (l.copy index place) = mode) ∧
      (mode.variants = [] → mode.flags.endsWithParent = false → l.source (l.shared id) = mode)
  /-- A copy is not the root, follows no mode, and is contained in no other place, except that it
  may contain itself. -/
  copy_private : ∀ index < compiled.size, ∀ place id mode,
    (l.source index).contains[place]? = some (.mode id) → g.get? id = some mode →
    mode.variants = [] → mode.flags.endsWithParent = true →
    l.copy index place ≠ CompiledGrammar.rootIndex ∧
    ∀ other < compiled.size, (compiled.mode other).starts ≠ some (l.copy index place) ∧
      ∀ place' entry, (l.source other).contains[place']? = some entry →
        l.copy index place ∈ l.indices g other place' entry →
        (other = index ∧ place' = place) ∨ (entry = .this ∧ other = l.copy index place)
  /-- Every index is that of a compiled mode. -/
  bounds : ∀ index < compiled.size,
    (∀ child ∈ (compiled.mode index).contains, child < compiled.size) ∧
    ∀ following ∈ (compiled.mode index).starts, following < compiled.size

/-! ### The layout of a compiled grammar -/

/-- The layout that the origins of the compiled modes give. -/
def Layout.ofOrigins (g : Grammar) (origins : List Origin) : Layout where
  source index := ((origins[index]?).bind (Origin.source g)).getD {}
  shared id := origins.idxOf (.declared id)
  variants id :=
    ((g.get? id).map fun mode =>
      ((List.range mode.variants.length).map (.variant id)).map origins.idxOf).getD []
  copy index place :=
    ((origins[index]?).map fun owner => origins.idxOf (.copy owner place)).getD 0

section OfOrigins

variable {g : Grammar} {ci : Bool} {compiled : CompiledGrammar} {origins : List Origin}
  {index : ModeIndex} {p : Origin}

theorem Layout.source_ofOrigins {mode : Mode} (hp : origins[index]? = some p)
    (hsource : p.source g = some mode) : (ofOrigins g origins).source index = mode := by
  simp [ofOrigins, hp, hsource]

theorem Layout.source_idxOf {mode : Mode} (hp : p ∈ origins) (hsource : p.source g = some mode) :
    (ofOrigins g origins).source (origins.idxOf p) = mode :=
  source_ofOrigins (List.getElem?_idxOf hp) hsource

theorem Layout.copy_ofOrigins (hp : origins[index]? = some p) (place : Nat) :
    (ofOrigins g origins).copy index place = origins.idxOf (.copy p place) := by
  simp [ofOrigins, hp]

/-- An entry stands for the indices of the origins it stands for. -/
theorem Layout.indices_ofOrigins (hnodup : origins.Nodup) (hp : origins[index]? = some p)
    (place : Nat) (entry : Contained) :
    (ofOrigins g origins).indices g index place entry =
      (p.standsFor g place entry).map origins.idxOf := by
  cases entry with
  | this => rw [indices, Origin.standsFor, List.map_singleton, idxOf_of_getElem? hnodup hp]
  | mode id =>
      cases hmode : g.get? id with
      | none => simp [indices, Origin.standsFor, hmode, ofOrigins]
      | some mode =>
          simp only [indices, Origin.standsFor, hmode]
          split
          · simp [ofOrigins, hmode]
          · split <;> simp [ofOrigins, hp]

namespace Placed

variable (h : Placed g ci [] (compiled.modes.map Slot.compiled) origins)

include h

theorem exists_origin (hindex : index < compiled.size) : ∃ p, origins[index]? = some p := by
  have hlt : index < origins.length := by
    rw [h.size, Array.size_map]
    exact hindex
  exact ⟨origins[index], List.getElem?_eq_getElem hlt⟩

theorem lt_size (hp : origins[index]? = some p) : index < compiled.size := by
  have hlt := (List.getElem?_eq_some_iff.1 hp).1
  rw [h.size, Array.size_map] at hlt
  exact hlt

theorem slot_eq (hp : origins[index]? = some p) :
    (compiled.modes.map Slot.compiled)[index]? = some (.compiled (compiled.mode index)) := by
  have hlt : index < compiled.modes.size := h.lt_size hp
  rw [Array.getElem?_map, CompiledGrammar.mode, Array.getElem?_eq_getElem hlt]
  rfl

theorem started_mode (hp : origins[index]? = some p) :
    Started g ci (compiled.modes.map Slot.compiled) origins p (compiled.mode index) := by
  obtain ⟨q, hq, hstarted⟩ := h.started (h.slot_eq hp)
  obtain rfl := Option.some.inj (hp.symm.trans hq)
  exact hstarted

theorem complete_mode (hp : origins[index]? = some p) :
    Complete g ci (compiled.modes.map Slot.compiled) origins p (compiled.mode index) :=
  h.complete (h.slot_eq hp) List.not_mem_nil hp

/-- The origins of a complete mode's contents and of what follows it are there. -/
theorem mem_of_mem_contents (hp : origins[index]? = some p) {q : Origin}
    (hq : q ∈ p.contents g) : q ∈ origins :=
  (h.complete_mode hp).contains.mem hq

theorem mem_of_follower (hp : origins[index]? = some p) {q : Origin}
    (hq : p.follower g = some q) : q ∈ origins :=
  (h.complete_mode hp).starts.mem (by simp [hq])

/-- Each index has an origin, whose mode the layout gives. -/
theorem exists_source_ofOrigins (hindex : index < compiled.size) :
    ∃ p, origins[index]? = some p ∧
      p.source g = some ((Layout.ofOrigins g origins).source index) := by
  obtain ⟨p, hp⟩ := h.exists_origin hindex
  obtain ⟨mode, hsource⟩ := h.exists_source (List.mem_of_getElem? hp)
  exact ⟨p, hp, by rw [Layout.source_ofOrigins hp hsource, hsource]⟩

end Placed

theorem Started.traitsOf {slots : Array Slot} {c : CompiledMode} {mode : Mode}
    (h : Started g ci slots origins p c) (hsource : p.source g = some mode) :
    c.TraitsOf ci mode := by
  obtain ⟨other, inherited, hother, -, htraits⟩ := h.traits
  obtain rfl := Option.some.inj (hsource.symm.trans hother)
  obtain ⟨hclassName, -, -, -, -, hkeywords, hrelevance, hsubLanguage, hbegins, hflags, -⟩ :=
    Mode.compileTraits_eq_ok htraits
  exact ⟨hclassName, hrelevance, hsubLanguage, hflags, hbegins, hkeywords⟩

/-- An origin comes from a declared mode or from a variant laid over one. -/
theorem Origin.source_cases {mode : Mode} (hsource : p.source g = some mode) :
    (∃ id, g.get? id = some mode) ∨
      ∃ id base, ∃ variant ∈ base.variants,
        g.get? id = some base ∧ mode = base.overlay variant := by
  cases p with
  | declared id => exact .inl ⟨id, hsource⟩
  | variant id place =>
      obtain ⟨base, hbase, hsource⟩ := Option.bind_eq_some_iff.1 hsource
      obtain ⟨variant, hvariant, hsource⟩ := Option.bind_eq_some_iff.1 hsource
      cases hsource
      exact .inr ⟨id, base, variant, List.mem_of_getElem? hvariant, hbase, rfl⟩
  | copy owner place =>
      obtain ⟨base, -, hsource⟩ := Option.bind_eq_some_iff.1 hsource
      split at hsource
      · exact .inl ⟨_, hsource⟩
      · cases hsource

namespace Placed

variable (h : Placed g ci [] (compiled.modes.map Slot.compiled) origins)

include h

theorem contains_ofOrigins (hp : origins[index]? = some p) {mode : Mode}
    (hsource : p.source g = some mode) :
    (compiled.mode index).contains = mode.contains.zipIdx.flatMap fun (entry, place) =>
      (Layout.ofOrigins g origins).indices g index place entry := by
  have hcontains := (h.complete_mode hp).contains.eq_map_idxOf h.nodup
  rw [hcontains, Origin.contents_eq hsource, Origin.standForAll_eq_flatMap, List.map_flatMap]
  simp only [Layout.indices_ofOrigins h.nodup hp]

theorem starts_ofOrigins (hp : origins[index]? = some p) {mode : Mode}
    (hsource : p.source g = some mode) :
    (compiled.mode index).starts = mode.starts.map (Layout.ofOrigins g origins).shared := by
  have hstarts := (h.complete_mode hp).starts.eq_map_idxOf h.nodup
  rw [Origin.follower_eq hsource] at hstarts
  cases hcompiled : (compiled.mode index).starts <;> cases hdeclared : mode.starts <;>
    simp_all [Layout.ofOrigins]

/-- What an entry refers to is declared, since nothing else has a slot. -/
theorem exists_declaration (hp : origins[index]? = some p) {mode : Mode}
    (hsource : p.source g = some mode) {place : Nat} {id : ModeId}
    (hentry : mode.contains[place]? = some (.mode id)) : ∃ inner, g.get? id = some inner := by
  cases hinner : g.get? id with
  | some inner => exact ⟨inner, rfl⟩
  | none =>
      have hstands : Origin.declared id ∈ p.standsFor g place (.mode id) := by
        simp [Origin.standsFor, hinner]
      have hmem := h.mem_of_mem_contents hp
        (Origin.standsFor_subset_contents hsource hentry hstands)
      obtain ⟨inner, hsome⟩ := h.exists_source hmem
      exact absurd (hinner.symm.trans hsome) (by simp)

/-- The indices of an entry come from what it refers to. -/
theorem map_source_indices (hp : origins[index]? = some p) {mode : Mode}
    (hsource : p.source g = some mode) {place : Nat} {entry : Contained}
    (hentry : mode.contains[place]? = some entry) :
    ((Layout.ofOrigins g origins).indices g index place entry).map
        (some ∘ (Layout.ofOrigins g origins).source) =
      (p.standsFor g place entry).map (Origin.source g) := by
  rw [Layout.indices_ofOrigins h.nodup hp, List.map_map]
  apply List.map_congr_left
  intro q hq
  have hmem := h.mem_of_mem_contents hp (Origin.standsFor_subset_contents hsource hentry hq)
  obtain ⟨inner, hinner⟩ := h.exists_source hmem
  rw [hinner, Function.comp_apply, Function.comp_apply, Layout.source_idxOf hmem hinner]

theorem source_of_entry (hp : origins[index]? = some p) {mode inner : Mode}
    (hsource : p.source g = some mode) {place : Nat} {id : ModeId}
    (hentry : mode.contains[place]? = some (.mode id)) (hinner : g.get? id = some inner) :
    (inner.variants ≠ [] → ((Layout.ofOrigins g origins).variants id).map
        (Layout.ofOrigins g origins).source = inner.variants.map inner.overlay) ∧
    (inner.variants = [] → inner.flags.endsWithParent = true →
      (Layout.ofOrigins g origins).source ((Layout.ofOrigins g origins).copy index place) = inner) ∧
    (inner.variants = [] → inner.flags.endsWithParent = false →
      (Layout.ofOrigins g origins).source ((Layout.ofOrigins g origins).shared id) = inner) := by
  have hindices := h.map_source_indices hp hsource hentry
  simp only [Layout.indices, Origin.standsFor, hinner] at hindices
  refine ⟨?_, ?_, ?_⟩
  · intro hvariants
    rw [if_pos (by simpa using hvariants), if_pos (by simpa using hvariants),
      Origin.map_source_variants hinner, ← List.map_map] at hindices
    exact List.map_injective_iff.2 (fun _ _ => Option.some.inj) hindices
  · intro hvariants hparent
    have hcopy : Origin.source g (.copy p place) = some inner := by
      simp [Origin.source, hsource, hentry, hinner]
    simpa [hvariants, hparent, hcopy] using hindices
  · intro hvariants hparent
    simpa [hvariants, hparent, Origin.source, hinner] using hindices

/-- The copy for a place has a slot. -/
theorem copy_mem (hp : origins[index]? = some p) {mode inner : Mode}
    (hsource : p.source g = some mode) {place : Nat} {id : ModeId}
    (hentry : mode.contains[place]? = some (.mode id)) (hinner : g.get? id = some inner)
    (hvariants : inner.variants = []) (hparent : inner.flags.endsWithParent = true) :
    Origin.copy p place ∈ origins := by
  have hstands : Origin.copy p place ∈ p.standsFor g place (.mode id) := by
    simp [Origin.standsFor, hinner, hvariants, hparent]
  exact h.mem_of_mem_contents hp (Origin.standsFor_subset_contents hsource hentry hstands)

/-- A copy has an index of its own: another index or another place has another origin. -/
theorem copy_private (hroot : origins[CompiledGrammar.rootIndex]? = some (.declared Grammar.rootId))
    (hp : origins[index]? = some p) {place : Nat} (hcopy : Origin.copy p place ∈ origins) :
    origins.idxOf (.copy p place) ≠ CompiledGrammar.rootIndex ∧
    ∀ {other : ModeIndex} {q : Origin} {mode : Mode}, origins[other]? = some q →
      q.source g = some mode →
      (compiled.mode other).starts ≠ some (origins.idxOf (.copy p place)) ∧
      ∀ place' entry, mode.contains[place']? = some entry →
        origins.idxOf (.copy p place) ∈ (Layout.ofOrigins g origins).indices g other place' entry →
        (other = index ∧ place' = place) ∨
          (entry = .this ∧ other = origins.idxOf (.copy p place)) := by
  have hcopyAt := List.getElem?_idxOf hcopy
  refine ⟨?_, ?_⟩
  · intro heq
    rw [heq, hroot] at hcopyAt
    cases hcopyAt
  · intro other q mode hq hsource
    refine ⟨?_, ?_⟩
    · intro hstarts
      have hlocated := (h.complete_mode hq).starts
      rw [hstarts, Origin.follower_eq hsource] at hlocated
      cases hdeclared : mode.starts with
      | none => simp [hdeclared, Located] at hlocated
      | some id => simp [hdeclared, Located, hcopyAt] at hlocated
    · intro place' entry hentry hmem
      rw [Layout.indices_ofOrigins h.nodup hq] at hmem
      obtain ⟨r, hr, heq⟩ := List.mem_map.1 hmem
      have hrmem := h.mem_of_mem_contents hq (Origin.standsFor_subset_contents hsource hentry hr)
      obtain rfl := (List.idxOf_inj hrmem).1 heq
      cases entry with
      | this =>
          obtain rfl := List.mem_singleton.1 hr
          exact .inr ⟨rfl, (idxOf_of_getElem? h.nodup hq).symm⟩
      | mode id =>
          simp only [Origin.standsFor] at hr
          split at hr
          · simp at hr
          · split at hr
            · simp at hr
            · split at hr
              · obtain ⟨rfl, rfl⟩ := Origin.copy.inj (List.mem_singleton.1 hr)
                exact .inl ⟨index_unique h.nodup hq hp, rfl⟩
              · simp at hr

end Placed

end OfOrigins

/-- **Compiling unfolds the grammar.** Whatever compiles is laid out like its declaration: the modes
inside and the mode that follows are found where the layout has them, a declared mode in one place
for all that refer to it, the variants of a mode in one list for all of them, and a mode that ends
with its parent in a place for every mention of it. -/
theorem exists_unfolds_of_compile {g : Grammar} {ci : Bool} {compiled : CompiledGrammar}
    (hok : g.compile ci = .ok compiled) : ∃ l : Layout, compiled.Unfolds g l := by
  obtain ⟨rfl, origins, h, hroot⟩ := Grammar.placed_of_compile hok
  refine ⟨Layout.ofOrigins g origins, ⟨?_, ?_, ?_, ?_, ?_, ?_, ?_, ?_, ?_⟩⟩
  · refine ⟨h.lt_size hroot, Layout.source_ofOrigins hroot ?_⟩
    exact Array.getElem?_eq_getElem g.size_pos
  · intro index hindex
    obtain ⟨p, hp, hsource⟩ := h.exists_source_ofOrigins hindex
    exact Origin.source_cases hsource
  · intro index hindex
    obtain ⟨p, hp, hsource⟩ := h.exists_source_ofOrigins hindex
    exact (h.started_mode hp).traitsOf hsource
  · intro index hindex
    obtain ⟨p, hp, hsource⟩ := h.exists_source_ofOrigins hindex
    exact h.contains_ofOrigins hp hsource
  · intro index hindex
    obtain ⟨p, hp, hsource⟩ := h.exists_source_ofOrigins hindex
    exact h.starts_ofOrigins hp hsource
  · intro index hindex id hid
    obtain ⟨p, hp, hsource⟩ := h.exists_source_ofOrigins hindex
    have hmem : Origin.declared id ∈ origins :=
      h.mem_of_follower hp (by rw [Origin.follower_eq hsource, hid, Option.map_some])
    obtain ⟨mode, hmode⟩ := h.exists_source hmem
    have hshared := Layout.source_idxOf hmem hmode
    exact hmode.trans (congrArg some hshared.symm)
  · intro index hindex place id hentry
    obtain ⟨p, hp, hsource⟩ := h.exists_source_ofOrigins hindex
    obtain ⟨inner, hinner⟩ := h.exists_declaration hp hsource hentry
    exact ⟨inner, hinner, h.source_of_entry hp hsource hentry hinner⟩
  · intro index hindex place id inner hentry hinner hvariants hparent
    obtain ⟨p, hp, hsource⟩ := h.exists_source_ofOrigins hindex
    obtain ⟨hne, hother⟩ := h.copy_private hroot hp
      (h.copy_mem hp hsource hentry hinner hvariants hparent)
    rw [Layout.copy_ofOrigins hp]
    refine ⟨hne, ?_⟩
    intro other hlt
    obtain ⟨q, hq, hqsource⟩ := h.exists_source_ofOrigins hlt
    exact hother hq hqsource
  · intro index hindex
    obtain ⟨p, hp⟩ := h.exists_origin hindex
    refine ⟨?_, ?_⟩
    · intro child hchild
      obtain ⟨q, -, hq⟩ := (h.complete_mode hp).contains.exists_origin hchild
      exact h.lt_size hq
    · intro following hfollowing
      obtain ⟨q, -, hq⟩ :=
        (h.complete_mode hp).starts.exists_origin (Option.mem_toList.2 hfollowing)
      exact h.lt_size hq

/-- A grammar with a cycle through a shared mode, two variants, and a mode that ends with its parent
and contains itself. -/
def sampleUnfolded : Grammar :=
  ⟨#[{ contains := [.mode 1, .mode 2, .mode 3], lexemes := some "z" },
    { className := some "block", beginPattern := some "begin", endPattern := some "end",
      lexemes := some "z", contains := [.this, .mode 2, .mode 3, .mode 1], starts := some 2 },
    { className := some "word", beginPattern := some "<<", endPattern := some ">>",
      lexemes := some "z", contains := [.mode 1],
      variants := [{ relevance := some 3 }, { contains := [.mode 3] }] },
    { beginPattern := some "--", lexemes := some "z", contains := [.this],
      flags := { endsWithParent := true } }], by decide⟩

theorem exists_unfolds_of_compile_sample :
    ∃ compiled, sampleUnfolded.compile false = .ok compiled ∧
      ∃ l : Layout, compiled.Unfolds sampleUnfolded l := by
  have hok : (sampleUnfolded.compile false).isOk = true := by decide +kernel
  obtain ⟨compiled, hcompiled⟩ := exists_of_isOk hok
  exact ⟨compiled, hcompiled, exists_unfolds_of_compile hcompiled⟩

end LexicalModes
