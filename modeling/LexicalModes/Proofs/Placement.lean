import LexicalModes.Proofs.Slots

/-!
What compiling keeps true of the workbench. Every slot has an origin of its own (`Placed`), and the
two tables of a workbench find exactly the slots of declared modes and of variants (`Indexed`). A
slot that is compiled and not under way is complete. There are two ways for slots to change, and
each keeps the invariant: slots are reserved at the end (`Placed.reserve`), and a slot is filled
(`Placed.fill`).
-/

namespace LexicalModes

/-! ### The invariant -/

section Invariant

variable (g : Grammar) (ci : Bool)

/-- The end sources that a mode of this origin is compiled against: none at the top, else those of
another mode around it, which has begun before it. -/
inductive Against (slots : Array Slot) (origins : List Origin) (p : Origin) : Option String → Prop
  | top : Origin.Encloses g none p → Against slots origins p none
  | inside {parent : ModeIndex} {q : Origin} {s : CompiledMode} : origins[parent]? = some q →
      Origin.Encloses g (some q) p → q ≠ p → shellAt slots parent = some s →
      Against slots origins p (some s.terminatorEnd)

/-- The end sources that meet in a slot: its own and, if it ends with its parent, the parent's. A
mode at the top has no boundaries. -/
inductive EndsAt (slots : Array Slot) (origins : List Origin) : ModeIndex → List String → Prop
  | top {index : ModeIndex} {s : CompiledMode} : shellAt slots index = some s → s.begins = none →
      EndsAt slots origins index []
  | inside {index parent : ModeIndex} {p q : Origin} {s : CompiledMode} {ends : List String} :
      shellAt slots index = some s → s.begins.isSome = true → origins[index]? = some p →
      origins[parent]? = some q → Origin.Encloses g (some q) p →
      EndsAt slots origins parent ends →
      EndsAt slots origins index
        ((s.ends.map (·.source)).toList ++ if s.flags.endsWithParent then ends else [])

/-- The mode of this origin has begun to be compiled. -/
structure Started (slots : Array Slot) (origins : List Origin) (p : Origin) (c : CompiledMode) :
    Prop where
  traits : ∃ mode inherited, p.source g = some mode ∧ Against g slots origins p inherited ∧
    mode.compileTraits ci inherited = .ok c.shell
  ends : ∃ index ends, origins[index]? = some p ∧ EndsAt g slots origins index ends ∧
    (∀ source ∈ ends, source ≠ "") ∧ c.terminatorEnd = "|".intercalate ends

/-- The mode of this origin is compiled. -/
structure Complete (slots : Array Slot) (origins : List Origin) (p : Origin) (c : CompiledMode) :
    Prop where
  contains : Located origins c.contains (p.contents g)
  starts : Located origins c.starts.toList (p.follower g).toList
  terminators : ∃ children, c.contains.map (shellAt slots) = children.map some ∧
    c.compileTerminators ci children = .ok c.terminators

/-- Every slot has an origin of its own, a reserved slot holds the mode of its origin, and a slot
that is compiled and not under way is complete. A copy is only made for an owner that has begun and
that it is inside of. -/
structure Placed (underWay : List ModeIndex) (slots : Array Slot) (origins : List Origin) :
    Prop where
  size : origins.length = slots.size
  nodup : origins.Nodup
  reserved : ∀ {index : ModeIndex} {mode : Mode}, slots[index]? = some (.reserved mode) →
    ∃ p, origins[index]? = some p ∧ p.source g = some mode
  started : ∀ {index : ModeIndex} {c : CompiledMode}, slots[index]? = some (.compiled c) →
    ∃ p, origins[index]? = some p ∧ Started g ci slots origins p c
  complete : ∀ {index : ModeIndex} {c : CompiledMode} {p : Origin},
    slots[index]? = some (.compiled c) → index ∉ underWay → origins[index]? = some p →
    Complete g ci slots origins p c
  owners : ∀ {p : Origin} {place : Nat}, .copy p place ∈ origins →
    ∃ index s, origins[index]? = some p ∧ shellAt slots index = some s
  copies : ∀ {p : Origin} {place : Nat}, .copy p place ∈ origins → .copy p place ∈ p.contents g

/-- The tables find the slots of declared modes and of the variants of modes. -/
structure Indexed (w : Workbench) (origins : List Origin) : Prop where
  declared : ∀ {id : ModeId} {index : ModeIndex}, w.declared.lookup id = some index ↔
    origins[index]? = some (.declared id)
  variants : ∀ {id : ModeId} {indices : List ModeIndex}, w.variants.lookup id = some indices →
    ∃ mode, g.get? id = some mode ∧
      Located origins indices ((List.range mode.variants.length).map (.variant id))
  variants_of_mem : ∀ {id : ModeId} {place : Nat}, .variant id place ∈ origins →
    (w.variants.lookup id).isSome

/-- A mode of this origin is reached at the top or from the slot of a mode that encloses it. -/
def ReachedFrom (origins : List Origin) (p : Origin) : Option ModeIndex → Prop
  | none => Origin.Encloses g none p
  | some parent => ∃ q, origins[parent]? = some q ∧ Origin.Encloses g (some q) p

/-- The invariant of compiling. -/
structure Sound (underWay : List ModeIndex) (w : Workbench) (origins : List Origin) : Prop where
  placed : Placed g ci underWay w.slots origins
  indexed : Indexed g w origins

variable {g ci} {slots slots' : Array Slot} {origins origins' : List Origin} {p : Origin}
  {c : CompiledMode} {underWay underWay' : List ModeIndex}

theorem Against.mono {inherited : Option String} (h : Against g slots origins p inherited)
    (hgrows : Grows slots origins slots' origins') : Against g slots' origins' p inherited := by
  cases h with
  | top hencloses => exact .top hencloses
  | inside hq hencloses hne hs =>
      exact .inside (getElem?_of_isPrefix hgrows.origins hq) hencloses hne (hgrows.shells hs)

theorem ReachedFrom.mono {parent : Option ModeIndex} (h : ReachedFrom g origins p parent)
    (hgrows : origins <+: origins') : ReachedFrom g origins' p parent := by
  cases parent with
  | none => exact h
  | some parent =>
      obtain ⟨q, hq, hencloses⟩ := h
      exact ⟨q, getElem?_of_isPrefix hgrows hq, hencloses⟩

/-- A mode that follows another is reached from where that one is. -/
theorem ReachedFrom.follows {parent : Option ModeIndex} (h : ReachedFrom g origins p parent)
    {q : Origin} (hq : p.follower g = some q) : ReachedFrom g origins q parent := by
  cases parent with
  | none => exact Origin.Encloses.follows h hq
  | some parent =>
      obtain ⟨r, hr, hencloses⟩ := h
      exact ⟨r, hr, .follows hencloses hq⟩

theorem EndsAt.mono {index : ModeIndex} {ends : List String} (h : EndsAt g slots origins index ends)
    (hgrows : Grows slots origins slots' origins') : EndsAt g slots' origins' index ends := by
  induction h with
  | top hs hbegins => exact .top (hgrows.shells hs) hbegins
  | inside hs hbegins hp hq hencloses _ ih =>
      exact .inside (hgrows.shells hs) hbegins (getElem?_of_isPrefix hgrows.origins hp)
        (getElem?_of_isPrefix hgrows.origins hq) hencloses ih

theorem Started.mono (h : Started g ci slots origins p c)
    (hgrows : Grows slots origins slots' origins') : Started g ci slots' origins' p c := by
  obtain ⟨mode, inherited, hsource, hagainst, htraits⟩ := h.traits
  obtain ⟨index, ends, hp, hends, hne, hjoined⟩ := h.ends
  exact ⟨⟨mode, inherited, hsource, hagainst.mono hgrows, htraits⟩, index, ends,
    getElem?_of_isPrefix hgrows.origins hp, hends.mono hgrows, hne, hjoined⟩

theorem Complete.mono (h : Complete g ci slots origins p c)
    (hgrows : Grows slots origins slots' origins') : Complete g ci slots' origins' p c := by
  obtain ⟨children, hchildren, hterminators⟩ := h.terminators
  exact ⟨h.contains.mono hgrows.origins, h.starts.mono hgrows.origins, children,
    map_eq_map_some_mono (fun _ _ => hgrows.shells) hchildren, hterminators⟩

namespace Placed

/-- A mode compiled against the ends of its parent has its own end and, if it ends with the parent,
all of the parent's. -/
theorem started_of_compileTraits (h : Placed g ci underWay slots origins) {index : ModeIndex}
    {mode : Mode} {inherited : Option String} (hp : origins[index]? = some p)
    (hsource : p.source g = some mode) (hagainst : Against g slots origins p inherited)
    (htraits : mode.compileTraits ci inherited = .ok c)
    (hgrows : Grows slots origins slots' origins) (hs : shellAt slots' index = some c.shell) :
    Started g ci slots' origins p c := by
  obtain ⟨-, -, hbegins, hends, hterminatorEnd, -, -, -, -, hflags, hshell⟩ :=
    Mode.compileTraits_eq_ok htraits
  rw [hshell] at hs
  refine ⟨⟨mode, inherited, hsource, hagainst.mono hgrows, by rw [hshell, htraits]⟩, index, ?_⟩
  rw [hterminatorEnd]
  cases hagainst with
  | top hencloses =>
      exact ⟨[], hp, .top hs (Option.map_eq_none_iff.1 hbegins), by simp, rfl⟩
  | inside hq hencloses _ hd =>
      obtain ⟨d, hslot, rfl⟩ := shellAt_eq_some.1 hd
      obtain ⟨r, hr, hstarted⟩ := h.started hslot
      obtain rfl := Option.some.inj (hq.symm.trans hr)
      obtain ⟨parent, ends, hparent, hparentEnds, hne, hjoined⟩ := hstarted.ends
      have hsome : c.begins.isSome = true := by
        rw [← Option.isSome_map, hbegins]
        rfl
      have hat := EndsAt.inside hs hsome hp hparent hencloses (hparentEnds.mono hgrows)
      rw [hends, hflags, Option.bind_some] at hat
      refine ⟨_, hp, hat, ?_, ?_⟩
      · intro source hmem
        rcases List.mem_append.1 hmem with hown | hinherited
        · exact Mode.endSource?_ne_empty (Option.mem_toList.1 hown)
        · split at hinherited
          · exact hne source hinherited
          · cases hinherited
      · have hterminators : d.shell.terminatorEnd = d.terminatorEnd := rfl
        rw [Option.map_some, Option.getD_some, hterminators, hjoined,
          mode.terminatorEndWith_intercalate hne]

/-- Filling a slot again leaves its shell alone, and filling a reserved one gives it its shell. -/
theorem grows_fill {index : ModeIndex} (hshell : ∀ s, shellAt slots index = some s → s = c.shell) :
    Grows slots origins (slots.setIfInBounds index (.compiled c)) origins := by
  refine ⟨List.prefix_refl _, ?_⟩
  intro i s hs
  by_cases hi : i = index
  · subst hi
    obtain ⟨d, hd, -⟩ := shellAt_eq_some.1 hs
    obtain ⟨hlt, -⟩ := Array.getElem?_eq_some_iff.1 hd
    rw [hshell s hs]
    exact shellAt_eq_some.2 ⟨c, Array.getElem?_setIfInBounds_self_of_lt hlt, rfl⟩
  · unfold shellAt at hs ⊢
    rwa [Array.getElem?_setIfInBounds_ne (Ne.symm hi)]

/-- **Filling a slot.** It may be the first time, when the slot gets its shell and is under way, or
the last, when it is complete. -/
theorem fill (h : Placed g ci underWay slots origins) {index : ModeIndex}
    (hp : origins[index]? = some p)
    (hshell : ∀ s, shellAt slots index = some s → s = c.shell)
    (hstarted : Started g ci (slots.setIfInBounds index (.compiled c)) origins p c)
    (hcomplete : index ∉ underWay' → Complete g ci slots origins p c)
    (hunderWay : ∀ i, i ≠ index → i ∉ underWay' → i ∉ underWay) :
    Placed g ci underWay' (slots.setIfInBounds index (.compiled c)) origins := by
  have hgrows : Grows slots origins (slots.setIfInBounds index (.compiled c)) origins :=
    grows_fill hshell
  have hlt : index < slots.size := by
    rw [← h.size]
    exact (List.getElem?_eq_some_iff.1 hp).1
  have hcases : ∀ {i : ModeIndex} {slot : Slot},
      (slots.setIfInBounds index (.compiled c))[i]? = some slot →
      (i = index ∧ slot = .compiled c) ∨ (i ≠ index ∧ slots[i]? = some slot) := by
    intro i slot hslot
    by_cases hi : i = index
    · subst hi
      rw [Array.getElem?_setIfInBounds_self_of_lt hlt] at hslot
      exact .inl ⟨rfl, (Option.some.inj hslot).symm⟩
    · rw [Array.getElem?_setIfInBounds_ne (Ne.symm hi)] at hslot
      exact .inr ⟨hi, hslot⟩
  refine ⟨by rw [Array.size_setIfInBounds, h.size], h.nodup, ?_, ?_, ?_, ?_, h.copies⟩
  · intro i mode hslot
    obtain ⟨-, hfilled⟩ | ⟨-, hslot⟩ := hcases hslot
    · cases hfilled
    · exact h.reserved hslot
  · intro i d hslot
    obtain ⟨rfl, hfilled⟩ | ⟨-, hslot⟩ := hcases hslot
    · cases hfilled
      exact ⟨p, hp, hstarted⟩
    · obtain ⟨q, hq, hd⟩ := h.started hslot
      exact ⟨q, hq, hd.mono hgrows⟩
  · intro i d q hslot hi hq
    obtain ⟨rfl, hfilled⟩ | ⟨hne, hslot⟩ := hcases hslot
    · cases hfilled
      obtain rfl := Option.some.inj (hp.symm.trans hq)
      exact (hcomplete hi).mono hgrows
    · exact (h.complete hslot (hunderWay i hne hi) hq).mono hgrows
  · intro q place hq
    obtain ⟨i, s, hi, hs⟩ := h.owners hq
    exact ⟨i, s, hi, hgrows.shells hs⟩

/-- Whatever has a slot has a mode. -/
theorem exists_source (h : Placed g ci underWay slots origins) (hp : p ∈ origins) :
    ∃ mode, p.source g = some mode := by
  obtain ⟨index, hindex⟩ := List.getElem?_of_mem hp
  have hlt : index < slots.size := by
    rw [← h.size]
    exact (List.getElem?_eq_some_iff.1 hindex).1
  have hslot : slots[index]? = some slots[index] := Array.getElem?_eq_getElem hlt
  cases hcase : slots[index] with
  | reserved mode =>
      obtain ⟨q, hq, hsource⟩ := h.reserved (hslot.trans (congrArg some hcase))
      obtain rfl := Option.some.inj (hindex.symm.trans hq)
      exact ⟨mode, hsource⟩
  | compiled c =>
      obtain ⟨q, hq, hstarted⟩ := h.started (hslot.trans (congrArg some hcase))
      obtain rfl := Option.some.inj (hindex.symm.trans hq)
      obtain ⟨mode, inherited, hsource, -⟩ := hstarted.traits
      exact ⟨mode, hsource⟩

/-- A mode that has not begun owns no copies. -/
theorem copy_notMem (h : Placed g ci underWay slots origins) {index : ModeIndex} {mode : Mode}
    (hreserved : slots[index]? = some (.reserved mode)) (hp : origins[index]? = some p)
    (place : Nat) : .copy p place ∉ origins := by
  intro hmem
  obtain ⟨i, s, hi, hs⟩ := h.owners hmem
  obtain ⟨d, hd, -⟩ := shellAt_eq_some.1 hs
  rw [index_unique h.nodup hi hp, hreserved] at hd
  cases hd

/-- **Reserving slots.** Modes of new origins get slots at the end. -/
theorem reserve (h : Placed g ci underWay slots origins) (added : List Origin) (modes : List Mode)
    (hsource : added.map (Origin.source g) = modes.map some)
    (hnodup : added.Nodup) (hnew : ∀ q ∈ added, q ∉ origins)
    (howners : ∀ {q place}, .copy q place ∈ added →
      ∃ index s, origins[index]? = some q ∧ shellAt slots index = some s)
    (hcopies : ∀ {q place}, .copy q place ∈ added → Origin.copy q place ∈ q.contents g) :
    Placed g ci underWay (slots ++ (modes.map Slot.reserved).toArray) (origins ++ added) ∧
      Grows slots origins (slots ++ (modes.map Slot.reserved).toArray) (origins ++ added) := by
  have hlength : added.length = modes.length := by
    have := congrArg List.length hsource
    simpa using this
  have hkeeps : ∀ {i : ModeIndex} {slot : Slot}, slots[i]? = some slot →
      (slots ++ (modes.map Slot.reserved).toArray)[i]? = some slot := by
    intro i slot hslot
    rw [Array.getElem?_append_left (Array.getElem?_eq_some_iff.1 hslot).1, hslot]
  have hgrows : Grows slots origins (slots ++ (modes.map Slot.reserved).toArray)
      (origins ++ added) := by
    refine ⟨List.prefix_append _ _, ?_⟩
    intro i s hs
    obtain ⟨d, hd, rfl⟩ := shellAt_eq_some.1 hs
    exact shellAt_eq_some.2 ⟨d, hkeeps hd, rfl⟩
  have hold : ∀ {i : ModeIndex} {d : CompiledMode},
      (slots ++ (modes.map Slot.reserved).toArray)[i]? = some (.compiled d) →
      slots[i]? = some (.compiled d) := by
    intro i d hd
    rw [Array.getElem?_append] at hd
    split at hd
    · exact hd
    · simp at hd
  have hdisjoint : ∀ q ∈ origins, ∀ r ∈ added, q ≠ r := by
    rintro q hq r hr rfl
    exact hnew q hr hq
  refine ⟨⟨by simp [h.size, hlength], List.nodup_append.2 ⟨h.nodup, hnodup, hdisjoint⟩,
    ?_, ?_, ?_, ?_, ?_⟩, hgrows⟩
  · intro i mode hslot
    rw [Array.getElem?_append] at hslot
    split at hslot
    · obtain ⟨q, hq, hmode⟩ := h.reserved hslot
      exact ⟨q, getElem?_of_isPrefix hgrows.origins hq, hmode⟩
    · rename_i hge
      have hmode : modes[i - slots.size]? = some mode := by simpa using hslot
      have hq := congrArg (·[i - slots.size]?) hsource
      simp only [List.getElem?_map, hmode, Option.map_some] at hq
      obtain ⟨q, hq, hqsource⟩ := Option.map_eq_some_iff.1 hq
      refine ⟨q, ?_, hqsource⟩
      rw [List.getElem?_append_right (by rw [h.size]; omega), h.size, hq]
  · intro i d hslot
    obtain ⟨q, hq, hd⟩ := h.started (hold hslot)
    exact ⟨q, getElem?_of_isPrefix hgrows.origins hq, hd.mono hgrows⟩
  · intro i d q hslot hi hq
    obtain ⟨r, hr, -⟩ := h.started (hold hslot)
    obtain rfl := Option.some.inj ((getElem?_of_isPrefix hgrows.origins hr).symm.trans hq)
    exact (h.complete (hold hslot) hi hr).mono hgrows
  · intro q place hq
    rcases List.mem_append.1 hq with hq | hq
    · obtain ⟨i, s, hi, hs⟩ := h.owners hq
      exact ⟨i, s, getElem?_of_isPrefix hgrows.origins hi, hgrows.shells hs⟩
    · obtain ⟨i, s, hi, hs⟩ := howners hq
      exact ⟨i, s, getElem?_of_isPrefix hgrows.origins hi, hgrows.shells hs⟩
  · intro q place hq
    rcases List.mem_append.1 hq with hq | hq
    · exact h.copies hq
    · exact hcopies hq

end Placed

/-! ### The tables -/

theorem getElem?_append_iff_of_notMem {added : List Origin} (hp : p ∉ added) {index : ModeIndex} :
    (origins ++ added)[index]? = some p ↔ origins[index]? = some p := by
  constructor
  · intro h
    rw [List.getElem?_append] at h
    split at h
    · exact h
    · exact absurd (List.mem_of_getElem? h) hp
  · exact getElem?_of_isPrefix (List.prefix_append _ _)

theorem lookup_cons_of_ne {β : Type} {key other : ModeId} (h : key ≠ other) {value : β}
    {table : List (ModeId × β)} : ((other, value) :: table).lookup key = table.lookup key := by
  rw [List.lookup_cons, beq_false_of_ne h]

namespace Indexed

variable {w : Workbench}

/-- A copy is in neither table. -/
theorem copy (h : Indexed g w origins) (slots : Array Slot) (owner : Origin) (place : Nat) :
    Indexed g { w with slots := slots } (origins ++ [.copy owner place]) where
  declared := by
    intro other index
    rw [getElem?_append_iff_of_notMem (by simp)]
    exact h.declared
  variants hlookup := by
    obtain ⟨mode, hmode, hlocated⟩ := h.variants hlookup
    exact ⟨mode, hmode, hlocated.mono (List.prefix_append _ _)⟩
  variants_of_mem hmem := h.variants_of_mem (by simpa using hmem)

/-- A declared mode that is not in the table enters it with its new slot. -/
theorem declare (h : Indexed g w origins) (slots : Array Slot) {id : ModeId}
    (hnew : w.declared.lookup id = none) :
    Indexed g { w with slots := slots, declared := (id, origins.length) :: w.declared }
      (origins ++ [.declared id]) where
  declared := by
    intro other index
    by_cases hother : other = id
    · subst hother
      have habsent : ∀ i : Nat, origins[i]? ≠ some (Origin.declared other) := by
        intro i hi
        rw [h.declared.2 hi] at hnew
        cases hnew
      rw [List.lookup_cons_self, Option.some_inj, List.getElem?_append]
      split
      · constructor
        · rintro rfl
          omega
        · intro hindex
          exact absurd hindex (habsent index)
      · constructor
        · rintro rfl
          simp
        · intro hindex
          have hlt := (List.getElem?_eq_some_iff.1 hindex).1
          rw [List.length_singleton] at hlt
          exact Nat.le_antisymm (by omega) (by omega)
    · rw [getElem?_append_iff_of_notMem (by simp [hother]), ← h.declared]
      rw [lookup_cons_of_ne hother]
  variants hlookup := by
    obtain ⟨mode, hmode, hlocated⟩ := h.variants hlookup
    exact ⟨mode, hmode, hlocated.mono (List.prefix_append _ _)⟩
  variants_of_mem hmem := h.variants_of_mem (by simpa using hmem)

/-- The variants of a mode enter the table together, with their new slots in order. -/
theorem vary (h : Indexed g w origins) (slots : Array Slot) {id : ModeId} {mode : Mode}
    (hmode : g.get? id = some mode) :
    Indexed g
      { w with
        slots := slots
        variants := (id, List.range' origins.length mode.variants.length) :: w.variants }
      (origins ++ (List.range mode.variants.length).map (.variant id)) where
  declared := by
    intro other index
    rw [getElem?_append_iff_of_notMem (by simp)]
    exact h.declared
  variants := by
    intro other indices hlookup
    by_cases hother : other = id
    · subst hother
      rw [List.lookup_cons_self] at hlookup
      cases hlookup
      refine ⟨mode, hmode, ?_⟩
      simpa using located_range' origins ((List.range mode.variants.length).map (.variant other))
    · rw [lookup_cons_of_ne hother] at hlookup
      obtain ⟨mode, hmode, hlocated⟩ := h.variants hlookup
      exact ⟨mode, hmode, hlocated.mono (List.prefix_append _ _)⟩
  variants_of_mem := by
    intro other place hmem
    by_cases hother : other = id
    · subst hother
      simp [List.lookup_cons_self]
    · rw [lookup_cons_of_ne hother]
      have hold : Origin.variant other place ∈ origins := by
        simpa [Ne.symm hother] using hmem
      exact h.variants_of_mem hold

end Indexed

theorem Sound.empty : Sound g ci [] {} [] := by
  refine ⟨⟨rfl, List.nodup_nil, ?_, ?_, ?_, ?_, ?_⟩, ⟨?_, ?_, ?_⟩⟩ <;> simp

end Invariant

end LexicalModes
