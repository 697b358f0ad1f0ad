import LexicalModes.Proofs.Terminators

/-!
Whose ends a mode inherits. A mode that ends with its parent is compiled against one mode that
contains it, and takes over the end sources of that one. A copy is contained in no other mode than
its owner and itself, and it is compiled against the owner. A variant has one slot for all modes
that contain it, so it has the ends of whichever of them came to it first, and those of another one
only if they happen to be the same (`inheritsEnds_of_mem_contains`).
-/

namespace LexicalModes

/-- End sources followed by inherited ones, with a bar between them when there are both. -/
def joinEnds (own inherited : String) : String :=
  if own = "" then inherited else if inherited = "" then own else own ++ "|" ++ inherited

@[simp] theorem joinEnds_empty_left (inherited : String) : joinEnds "" inherited = inherited := rfl

@[simp] theorem joinEnds_empty_right (own : String) : joinEnds own "" = own := by
  by_cases hown : own = ""
  · simp [hown]
  · simp [joinEnds, hown]

theorem joinEnds_of_ne {own inherited : String} (hown : own ≠ "") (hinherited : inherited ≠ "") :
    joinEnds own inherited = own ++ "|" ++ inherited := by
  rw [joinEnds, if_neg hown, if_neg hinherited]

/-- What was inherited can be told from the joined ends. -/
theorem joinEnds_right_inj {own first second : String} :
    joinEnds own first = joinEnds own second ↔ first = second := by
  refine ⟨fun h => ?_, fun h => by rw [h]⟩
  have hlonger : ∀ inherited, own ≠ "" → inherited ≠ "" → joinEnds own inherited ≠ own := by
    intro inherited hown hinherited heq
    rw [joinEnds_of_ne hown hinherited] at heq
    have hlength := congrArg String.length heq
    simp only [String.length_append] at hlength
    have hbar : "|".length = 1 := rfl
    omega
  by_cases hown : own = ""
  · simpa [hown] using h
  · by_cases hfirst : first = ""
    · by_cases hsecond : second = ""
      · rw [hfirst, hsecond]
      · rw [hfirst, joinEnds_empty_right] at h
        exact absurd h.symm (hlonger second hown hsecond)
    · by_cases hsecond : second = ""
      · rw [hsecond, joinEnds_empty_right] at h
        exact absurd h (hlonger first hown hfirst)
      · rw [joinEnds_of_ne hown hfirst, joinEnds_of_ne hown hsecond] at h
        exact String.append_right_inj _ |>.1 h

theorem Mode.terminatorEndWith_eq_joinEnds {mode : Mode}
    (hparent : mode.flags.endsWithParent = true) (inherited : String) :
    mode.terminatorEndWith inherited = joinEnds (mode.endSource?.getD "") inherited := by
  by_cases hinherited : inherited = ""
  · simp [terminatorEndWith, hinherited]
  · cases hown : mode.endSource? with
    | none => simp [terminatorEndWith, hparent, hown, hinherited]
    | some own =>
        rw [Option.getD_some, joinEnds_of_ne (endSource?_ne_empty hown) hinherited]
        simp [terminatorEndWith, hparent, hown, hinherited]

/-! ### Which origins are inside another -/

namespace Origin

variable {g : Grammar} {p q r : Origin}

theorem exists_standsFor_of_mem_contents (hq : q ∈ p.contents g) :
    ∃ mode place entry, p.source g = some mode ∧ mode.contains[place]? = some entry ∧
      q ∈ p.standsFor g place entry := by
  cases hsource : p.source g with
  | none => simp [contents, hsource] at hq
  | some mode =>
      rw [contents_eq hsource, standForAll_eq_flatMap, List.mem_flatMap] at hq
      obtain ⟨⟨entry, place⟩, hentry, hq⟩ := hq
      exact ⟨mode, place, entry, rfl, List.mem_zipIdx_iff_getElem?.1 hentry, hq⟩

/-- What is inside a mode: the mode itself, a copy of its own, a variant, or a declared mode, which
then does not end with its parent. -/
theorem cases_of_mem_contents (hq : q ∈ p.contents g) :
    q = p ∨ (∃ place, q = .copy p place) ∨ (∃ id place, q = .variant id place) ∨
      ∃ id, q = .declared id ∧
        ∀ mode, g.get? id = some mode → mode.flags.endsWithParent = false := by
  obtain ⟨_, place, entry, -, -, hq⟩ := exists_standsFor_of_mem_contents hq
  cases entry with
  | this => exact .inl (List.mem_singleton.1 hq)
  | mode id =>
      simp only [standsFor] at hq
      split at hq
      case h_1 hnone =>
        refine .inr (.inr (.inr ⟨id, List.mem_singleton.1 hq, ?_⟩))
        simp [hnone]
      case h_2 mode hmode =>
        split at hq
        · obtain ⟨k, -, rfl⟩ := List.mem_map.1 hq
          exact .inr (.inr (.inl ⟨id, k, rfl⟩))
        · split at hq
          · exact .inr (.inl ⟨place, List.mem_singleton.1 hq⟩)
          · rename_i hparent
            refine .inr (.inr (.inr ⟨id, List.mem_singleton.1 hq, ?_⟩))
            simpa [hmode] using hparent

/-- Only declared modes follow another or are at the top, so whatever else is enclosed is
contained. -/
theorem Encloses.mem_contents {e : Option Origin} (h : Encloses g e r)
    (hr : ∀ id, r ≠ .declared id) : ∃ p, e = some p ∧ r ∈ p.contents g := by
  cases h with
  | root => exact absurd rfl (hr _)
  | contains hmem => exact ⟨_, rfl, hmem⟩
  | follows _ hfollower =>
      obtain ⟨mode, -, hstarts⟩ := Option.bind_eq_some_iff.1 hfollower
      obtain ⟨id, -, hdeclared⟩ := Option.map_eq_some_iff.1 hstarts
      exact absurd hdeclared.symm (hr id)

/-- A copy is inside no other mode than its owner and itself. -/
theorem owner_of_copy_mem_contents {owner : Origin} {place : Nat}
    (h : .copy owner place ∈ p.contents g) : p = owner ∨ p = .copy owner place := by
  rcases cases_of_mem_contents h with heq | ⟨_, heq⟩ | ⟨_, _, heq⟩ | ⟨_, heq, -⟩
  · exact .inr heq.symm
  · exact .inl (Origin.copy.inj heq).1.symm
  · cases heq
  · cases heq

end Origin

/-! ### The parent of a compiled mode -/

namespace CompiledGrammar

/-- The source of a mode's own end; empty if it has none. -/
def ownEnd (compiled : CompiledGrammar) (index : ModeIndex) : String :=
  ((compiled.mode index).ends.map (·.source)).getD ""

/-- The end sources of the mode are its own followed by those of the parent. -/
def InheritsEnds (compiled : CompiledGrammar) (index parent : ModeIndex) : Prop :=
  (compiled.mode index).terminatorEnd =
    joinEnds (compiled.ownEnd index) (compiled.mode parent).terminatorEnd

instance (compiled : CompiledGrammar) (index parent : ModeIndex) :
    Decidable (compiled.InheritsEnds index parent) :=
  inferInstanceAs (Decidable (_ = _))

/-- From two modes the same ends are inherited exactly if they have the same. -/
theorem InheritsEnds.iff_of_inheritsEnds {compiled : CompiledGrammar}
    {index first second : ModeIndex} (h : compiled.InheritsEnds index first) :
    compiled.InheritsEnds index second ↔
      (compiled.mode second).terminatorEnd = (compiled.mode first).terminatorEnd := by
  rw [InheritsEnds] at h ⊢
  rw [h, joinEnds_right_inj]
  exact eq_comm

/-- An origin for every compiled mode, and another one for another mode: the modes inside it and the
mode that follows it have the origins that the declarations put there. -/
structure Traces (compiled : CompiledGrammar) (g : Grammar) (origin : ModeIndex → Origin) :
    Prop where
  root : origin rootIndex = .declared Grammar.rootId
  injective : ∀ i < compiled.size, ∀ j < compiled.size, origin i = origin j → i = j
  contains : ∀ i < compiled.size, (compiled.mode i).contains.map origin = (origin i).contents g
  starts : ∀ i < compiled.size, (compiled.mode i).starts.map origin = (origin i).follower g

end CompiledGrammar

/-- The origin in a place of the list. -/
def originAt (origins : List Origin) (index : ModeIndex) : Origin :=
  (origins[index]?).getD (.declared Grammar.rootId)

theorem originAt_eq {origins : List Origin} {index : ModeIndex} {p : Origin}
    (hp : origins[index]? = some p) : originAt origins index = p := by
  rw [originAt, hp, Option.getD_some]

theorem Located.map_originAt {origins ps : List Origin} {indices : List ModeIndex}
    (h : Located origins indices ps) : indices.map (originAt origins) = ps := by
  have hmap := congrArg (List.map (·.getD (.declared Grammar.rootId))) h
  rw [List.map_map, List.map_map] at hmap
  exact hmap.trans (List.map_id ps)

/-- A mode that ends with its parent has the ends of what it is compiled against. -/
theorem terminatorEnd_of_compileTraits {mode : Mode} {ci : Bool} {inherited : String}
    {c : CompiledMode} (h : mode.compileTraits ci (some inherited) = .ok c.shell)
    (hparent : c.flags.endsWithParent = true) :
    c.terminatorEnd = joinEnds ((c.ends.map (·.source)).getD "") inherited := by
  obtain ⟨-, -, -, hends, hterminatorEnd, -, -, -, -, hflags, -⟩ := Mode.compileTraits_eq_ok h
  have hmode : mode.flags.endsWithParent = true := by
    rw [← hflags]
    exact hparent
  calc c.terminatorEnd
      = mode.terminatorEndWith inherited := hterminatorEnd
    _ = joinEnds (mode.endSource?.getD "") inherited :=
        Mode.terminatorEndWith_eq_joinEnds hmode inherited
    _ = joinEnds ((c.ends.map (·.source)).getD "") inherited := by
        rw [show c.ends.map (·.source) = mode.endSource? from hends]

section

variable {g : Grammar} {ci : Bool} {compiled : CompiledGrammar} {origins : List Origin}
  {index : ModeIndex} {p q : Origin}

theorem CompiledGrammar.mode_of_size_le (hge : compiled.size ≤ index) :
    compiled.mode index = .blank := by
  rw [mode, Array.getElem?_eq_none hge, Option.getD_none]

theorem CompiledGrammar.lt_size_of_mem_contains {child : ModeIndex}
    (h : child ∈ (compiled.mode index).contains) : index < compiled.size := by
  by_contra hge
  rw [mode_of_size_le (Nat.le_of_not_lt hge)] at h
  cases h

theorem CompiledGrammar.lt_size_of_starts {following : ModeIndex}
    (h : (compiled.mode index).starts = some following) : index < compiled.size := by
  by_contra hge
  rw [mode_of_size_le (Nat.le_of_not_lt hge)] at h
  cases h

namespace Placed

variable (h : Placed g ci [] (compiled.modes.map Slot.compiled) origins)

include h

theorem traces (hroot : origins[CompiledGrammar.rootIndex]? = some (.declared Grammar.rootId)) :
    compiled.Traces g (originAt origins) where
  root := originAt_eq hroot
  injective := by
    intro i hi j hj heq
    obtain ⟨p, hp⟩ := h.exists_origin hi
    obtain ⟨q, hq⟩ := h.exists_origin hj
    rw [originAt_eq hp, originAt_eq hq] at heq
    rw [heq] at hp
    exact index_unique h.nodup hp hq
  contains := by
    intro i hi
    obtain ⟨p, hp⟩ := h.exists_origin hi
    rw [originAt_eq hp]
    exact (h.complete_mode hp).contains.map_originAt
  starts := by
    intro i hi
    obtain ⟨p, hp⟩ := h.exists_origin hi
    have hstarts := (h.complete_mode hp).starts.map_originAt
    rw [originAt_eq hp]
    cases hcompiled : (compiled.mode i).starts <;> cases hfollower : p.follower g <;>
      simp_all

/-- The indices inside a mode are those of the origins inside its origin. -/
theorem mem_contains_iff {child : ModeIndex} (hp : origins[index]? = some p)
    (hq : origins[child]? = some q) :
    child ∈ (compiled.mode index).contains ↔ q ∈ p.contents g := by
  have hcontains := (h.complete_mode hp).contains
  constructor
  · intro hchild
    obtain ⟨r, hr, hat⟩ := hcontains.exists_origin hchild
    obtain rfl := Option.some.inj (hq.symm.trans hat)
    exact hr
  · intro hmem
    rw [hcontains.eq_map_idxOf h.nodup, ← idxOf_of_getElem? h.nodup hq]
    exact List.mem_map_of_mem hmem

theorem exists_origin_of_mem_contains {child : ModeIndex} (hp : origins[index]? = some p)
    (hchild : child ∈ (compiled.mode index).contains) :
    ∃ q, origins[child]? = some q ∧ q ∈ p.contents g := by
  obtain ⟨q, hq, hat⟩ := (h.complete_mode hp).contains.exists_origin hchild
  exact ⟨q, hat, hq⟩

theorem exists_origin_of_starts {following : ModeIndex} (hp : origins[index]? = some p)
    (hstarts : (compiled.mode index).starts = some following) :
    ∃ mode id, p.source g = some mode ∧ mode.starts = some id ∧
      origins[following]? = some (.declared id) := by
  obtain ⟨mode, hsource⟩ := h.exists_source (List.mem_of_getElem? hp)
  have hlocated := (h.complete_mode hp).starts
  rw [hstarts, Origin.follower_eq hsource] at hlocated
  cases hdeclared : mode.starts with
  | none =>
      rw [hdeclared] at hlocated
      cases hlocated
  | some id =>
      rw [hdeclared] at hlocated
      exact ⟨mode, id, hsource, hdeclared, located_singleton.1 hlocated⟩

/-- A declared mode that is inside another one does not end with its parent. -/
theorem endsWithParent_of_declared (hp : origins[index]? = some p) {id : ModeId}
    (hdeclared : p = .declared id)
    (hplain : ∀ mode, g.get? id = some mode → mode.flags.endsWithParent = false) :
    (compiled.mode index).flags.endsWithParent = false := by
  subst hdeclared
  obtain ⟨mode, hmode⟩ := h.exists_source (List.mem_of_getElem? hp)
  rw [((h.started_mode hp).traitsOf hmode).flags]
  exact hplain mode hmode

/-- **The parent.** What is no declared mode is compiled against another mode that contains it. -/
theorem exists_parent (hp : origins[index]? = some p) (hdeclared : ∀ id, p ≠ .declared id)
    (hparent : (compiled.mode index).flags.endsWithParent = true) :
    ∃ parent q, origins[parent]? = some q ∧ q ≠ p ∧ p ∈ q.contents g ∧
      compiled.InheritsEnds index parent := by
  obtain ⟨mode, inherited, -, hagainst, htraits⟩ := (h.started_mode hp).traits
  cases hagainst with
  | top hencloses =>
      obtain ⟨q, hq, -⟩ := hencloses.mem_contents hdeclared
      cases hq
  | @inside parent q s hq hencloses hne hs =>
      obtain ⟨r, hr, hmem⟩ := hencloses.mem_contents hdeclared
      cases hr
      rw [h.shellAt_eq hq] at hs
      cases hs
      exact ⟨parent, q, hq, hne, hmem, terminatorEnd_of_compileTraits htraits hparent⟩

end Placed

end

/-- **Whose ends are inherited.** A mode inside another that ends with its parent inherits the ends
of a mode that contains it, so it inherits those of this one exactly if they are the same. A copy
always inherits the ends of the mode it is in; all else that is inside another and ends with its
parent is a variant. -/
theorem inheritsEnds_of_mem_contains {g : Grammar} {ci : Bool} {compiled : CompiledGrammar}
    (hok : g.compile ci = .ok compiled) :
    ∃ origin, compiled.Traces g origin ∧
      ∀ p < compiled.size, ∀ c ∈ (compiled.mode p).contains, c ≠ p →
        (compiled.mode c).flags.endsWithParent = true →
        ((∃ place, origin c = .copy (origin p) place) ∧ compiled.InheritsEnds c p ∨
          ∃ id place, origin c = .variant id place) ∧
        ∃ first, first ≠ c ∧ c ∈ (compiled.mode first).contains ∧
          compiled.InheritsEnds c first ∧
          (compiled.InheritsEnds c p ↔
            (compiled.mode p).terminatorEnd = (compiled.mode first).terminatorEnd) := by
  obtain ⟨-, origins, h, hroot⟩ := Grammar.placed_of_compile hok
  refine ⟨originAt origins, h.traces hroot, ?_⟩
  intro p hp c hc hne hparent
  obtain ⟨owner, howner⟩ := h.exists_origin hp
  obtain ⟨r, hr, hmem⟩ := h.exists_origin_of_mem_contains howner hc
  rw [originAt_eq howner, originAt_eq hr]
  -- The slot of a declared mode is shared only if it does not end with its parent.
  have hcases : (∃ place, r = .copy owner place) ∨ ∃ id place, r = .variant id place := by
    rcases Origin.cases_of_mem_contents hmem with rfl | hcopy | hvariant | ⟨id, hid, hplain⟩
    · exact absurd (index_unique h.nodup hr howner) hne
    · exact .inl hcopy
    · exact .inr hvariant
    · rw [h.endsWithParent_of_declared hr hid hplain] at hparent
      cases hparent
  have hdeclared : ∀ id, r ≠ .declared id := by
    rintro id rfl
    rcases hcases with ⟨_, heq⟩ | ⟨_, _, heq⟩ <;> cases heq
  obtain ⟨first, q, hq, hqr, hcontents, hinherits⟩ := h.exists_parent hr hdeclared hparent
  have hfirst : first ≠ c := by
    rintro rfl
    exact hqr (Option.some.inj (hq.symm.trans hr))
  refine ⟨?_, first, hfirst, (h.mem_contains_iff hq hr).2 hcontents, hinherits,
    hinherits.iff_of_inheritsEnds⟩
  rcases hcases with ⟨place, rfl⟩ | hvariant
  · refine .inl ⟨⟨place, rfl⟩, ?_⟩
    rcases Origin.owner_of_copy_mem_contents hcontents with rfl | hself
    · rw [index_unique h.nodup howner hq]
      exact hinherits
    · exact absurd hself hqr
  · exact .inr hvariant

/-- Two modes with different ends that contain a variant that ends with its parent, and a mode
without variants that does so too. -/
def sampleShared : Grammar :=
  ⟨#[{ contains := [.mode 1, .mode 2], lexemes := some "z" },
    { beginPattern := some "if", endPattern := some "fi", lexemes := some "z",
      contains := [.mode 3, .mode 4] },
    { beginPattern := some "do", endPattern := some "od", lexemes := some "z",
      contains := [.mode 3, .mode 4] },
    { beginPattern := some "--", lexemes := some "z", variants := [{ endPattern := some ";;" }],
      flags := { endsWithParent := true } },
    { beginPattern := some "let", endPattern := some "in", lexemes := some "z", contains := [.this],
      flags := { endsWithParent := true } }], by decide⟩

/-- The second of the two modes has a copy of its own, with its own end. -/
theorem inheritsEnds_of_mem_contains_sample :
    ∃ compiled origin, sampleShared.compile false = .ok compiled ∧
      compiled.Traces sampleShared origin ∧ (compiled.mode 2).contains = [3, 5] ∧
      (compiled.mode 5).terminatorEnd = "in|od" ∧
      ((∃ place, origin 5 = .copy (origin 2) place) ∧ compiled.InheritsEnds 5 2 ∨
        ∃ id place, origin 5 = .variant id place) := by
  obtain ⟨compiled, hok, hfacts⟩ := exists_of_any (show (sampleShared.compile false).toOption.any
    (fun c => c.size == 6 && (c.mode 2).contains == [3, 5] &&
      (c.mode 5).terminatorEnd == "in|od" && (c.mode 5).flags.endsWithParent) = true by
        decide +kernel)
  simp only [Bool.and_eq_true, beq_iff_eq] at hfacts
  obtain ⟨⟨⟨hsize, hcontains⟩, hends⟩, hparent⟩ := hfacts
  obtain ⟨origin, htraces, hinherits⟩ := inheritsEnds_of_mem_contains hok
  refine ⟨compiled, origin, hok, htraces, hcontains, hends, ?_⟩
  exact (hinherits 2 (by omega) 5 (by simp [hcontains]) (by decide) hparent).1

/-- The variant is inside the second mode as well, but has the end of the first. -/
theorem not_inheritsEnds_of_variant :
    ∃ compiled, sampleShared.compile false = .ok compiled ∧ 3 ∈ (compiled.mode 2).contains ∧
      (compiled.mode 3).flags.endsWithParent = true ∧ (compiled.mode 3).terminatorEnd = ";;|fi" ∧
      (compiled.mode 2).terminatorEnd = "od" ∧ ¬compiled.InheritsEnds 3 2 := by
  obtain ⟨compiled, hok, hfacts⟩ := exists_of_any (show (sampleShared.compile false).toOption.any
    (fun c => decide (3 ∈ (c.mode 2).contains) && (c.mode 3).flags.endsWithParent &&
      (c.mode 3).terminatorEnd == ";;|fi" && (c.mode 2).terminatorEnd == "od" &&
      decide ¬c.InheritsEnds 3 2) = true by decide +kernel)
  simp only [Bool.and_eq_true, beq_iff_eq, decide_eq_true_eq] at hfacts
  obtain ⟨⟨⟨⟨hmem, hparent⟩, hends⟩, hother⟩, hnot⟩ := hfacts
  exact ⟨compiled, hok, hmem, hparent, hends, hother, hnot⟩

end LexicalModes
