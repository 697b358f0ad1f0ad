import LexicalModes.Proofs.Pieces
import LexicalModes.Proofs.Unfolding

/-!
What the terminators of a compiled mode are made of. The ends that meet in a mode (`Ends`) are
joined by bars on their way down through the modes that end with their parents; the joined ends then
count as one pattern when the terminators are composed. So the references of an inherited end are
renumbered for the begins before it but not for the ends before it, and they point where they should
exactly if there are no groups in those ends (`terminators_text_eq_iff`).
-/

namespace LexicalModes

namespace CompiledGrammar

/-- A mode is around those it contains and those that follow one it is around. -/
inductive Surrounds (compiled : CompiledGrammar) (parent : ModeIndex) : ModeIndex → Prop
  | contains {child : ModeIndex} : child ∈ (compiled.mode parent).contains →
      Surrounds compiled parent child
  | follows {index following : ModeIndex} : Surrounds compiled parent index →
      (compiled.mode index).starts = some following → Surrounds compiled parent following

/-- The end sources that meet in a mode: its own, and those of a mode around it if it ends with its
parent. A mode that nothing is around has none. -/
inductive Ends (compiled : CompiledGrammar) : ModeIndex → List String → Prop
  | top {index : ModeIndex} : (compiled.mode index).begins = none → Ends compiled index []
  | inside {parent index : ModeIndex} {ends : List String} : compiled.Surrounds parent index →
      (compiled.mode index).begins.isSome = true → Ends compiled parent ends →
      Ends compiled index (((compiled.mode index).ends.map (·.source)).toList ++
        if (compiled.mode index).flags.endsWithParent then ends else [])

/-- How the modes inside a mode begin; keywords may have a dot on either side. -/
def beginSources (compiled : CompiledGrammar) (index : ModeIndex) : List String :=
  ((compiled.mode index).contains.map compiled.mode).filterMap CompiledMode.beginAlternative?

/-- What is illegal in a mode. -/
def illegalSources (compiled : CompiledGrammar) (index : ModeIndex) : List String :=
  ((compiled.mode index).illegal.map (·.source)).toList

end CompiledGrammar

theorem compilePattern_text {ci : Bool} {source : String} {t : Pattern}
    (h : compilePattern ci source = .ok t) : t.text = patternFlags ci ++ source := by
  unfold compilePattern at h
  split at h
  · rename_i found hfound
    cases h
    obtain ⟨engine, -, rfl⟩ := Option.map_eq_some_iff.1 hfound
    rfl
  · cases h

section

variable {g : Grammar} {ci : Bool} {compiled : CompiledGrammar} {origins : List Origin}
  {index : ModeIndex} {p q : Origin}

namespace Placed

variable (h : Placed g ci [] (compiled.modes.map Slot.compiled) origins)

include h

theorem shellAt_eq (hp : origins[index]? = some p) :
    shellAt (compiled.modes.map Slot.compiled) index = some (compiled.mode index).shell :=
  shellAt_eq_some.2 ⟨_, h.slot_eq hp, rfl⟩

/-- What encloses an origin is around the mode of that origin. -/
theorem surrounds_of_encloses {parent : ModeIndex} (hq : origins[parent]? = some q)
    (hencloses : Origin.Encloses g (some q) p) :
    ∃ index, origins[index]? = some p ∧ compiled.Surrounds parent index := by
  generalize he : some q = e at hencloses
  induction hencloses with
  | root => cases he
  | @contains r p hmem =>
      cases he
      have hcontains := (h.complete_mode hq).contains
      have hp := hcontains.mem hmem
      refine ⟨origins.idxOf p, List.getElem?_idxOf hp, .contains ?_⟩
      rw [hcontains.eq_map_idxOf h.nodup]
      exact List.mem_map_of_mem hmem
  | @follows e r p _ hfollower ih =>
      obtain ⟨index, hr, hsurrounds⟩ := ih he
      have hstarts := (h.complete_mode hr).starts
      have hp := h.mem_of_follower hr hfollower
      refine ⟨origins.idxOf p, List.getElem?_idxOf hp, .follows hsurrounds ?_⟩
      have hlist := hstarts.eq_map_idxOf h.nodup
      rw [hfollower] at hlist
      simpa [Option.toList_eq_singleton_iff] using hlist

theorem ends_of_endsAt {ends : List String}
    (hends : EndsAt g (compiled.modes.map Slot.compiled) origins index ends) :
    compiled.Ends index ends := by
  induction hends with
  | @top index s hs hbegins =>
      obtain ⟨c, hslot, -⟩ := shellAt_eq_some.1 hs
      obtain ⟨p, hp, -⟩ := h.started hslot
      rw [h.shellAt_eq hp] at hs
      cases hs
      exact .top hbegins
  | @inside index parent p q s ends hs hbegins hp hq hencloses _ ih =>
      rw [h.shellAt_eq hp] at hs
      cases hs
      obtain ⟨other, hother, hsurrounds⟩ := h.surrounds_of_encloses hq hencloses
      rw [index_unique h.nodup hother hp] at hsurrounds
      exact .inside hsurrounds hbegins ih

/-- The ends that meet in a mode make up its end sources. -/
theorem exists_ends (hp : origins[index]? = some p) :
    ∃ ends, compiled.Ends index ends ∧ (∀ source ∈ ends, source ≠ "") ∧
      (compiled.mode index).terminatorEnd = "|".intercalate ends := by
  obtain ⟨other, ends, hother, hends, hne, hjoined⟩ := (h.started_mode hp).ends
  rw [index_unique h.nodup hother hp] at hends
  exact ⟨ends, h.ends_of_endsAt hends, hne, hjoined⟩

theorem beginSources_ne_empty (hp : origins[index]? = some p) :
    ∀ source ∈ compiled.beginSources index, source ≠ "" := by
  intro source hsource
  obtain ⟨child, hchild, hbegin⟩ := List.mem_filterMap.1 hsource
  obtain ⟨j, hj, rfl⟩ := List.mem_map.1 hchild
  obtain ⟨q, -, hq⟩ := (h.complete_mode hp).contains.exists_origin hj
  obtain ⟨mode, inherited, -, -, htraits⟩ := (h.started_mode hq).traits
  obtain ⟨-, -, hbegins, -⟩ := Mode.compileTraits_eq_ok htraits
  obtain ⟨b, hb, rfl⟩ := Option.map_eq_some_iff.1 hbegin
  split
  · simp
  · have hsome : (compiled.mode j).shell.begins.map (·.source) = some b.source := by
      rw [show (compiled.mode j).shell.begins = some b from hb, Option.map_some]
    obtain ⟨e, -, he⟩ := Option.map_eq_some_iff.1 (hbegins.symm.trans hsome)
    rw [← he]
    exact mode.beginSource_ne_empty

theorem illegalSources_ne_empty (hp : origins[index]? = some p) :
    ∀ source ∈ compiled.illegalSources index, source ≠ "" := by
  intro source hsource
  obtain ⟨mode, inherited, -, -, htraits⟩ := (h.started_mode hp).traits
  obtain ⟨-, hillegal, -⟩ := Mode.compileTraits_eq_ok htraits
  have hsome : nonempty? mode.illegal = some source :=
    hillegal.symm.trans (Option.mem_toList.1 hsource)
  exact (nonempty?_eq_some.1 hsome).2

/-- What may interrupt a mode: the begins, all ends as one pattern, and what is illegal. -/
theorem alternatives_eq (hp : origins[index]? = some p) {ends : List String}
    (hends : ∀ source ∈ ends, source ≠ "")
    (hjoined : (compiled.mode index).terminatorEnd = "|".intercalate ends) :
    (compiled.mode index).alternatives ((compiled.mode index).contains.map compiled.mode) =
      compiled.beginSources index ++ (if ends = [] then [] else ["|".intercalate ends]) ++
        compiled.illegalSources index := by
  have hkeep : ∀ {texts : List String}, (∀ text ∈ texts, text ≠ "") →
      texts.filter (!·.isEmpty) = texts := by
    intro texts htexts
    rw [List.filter_eq_self]
    intro text htext
    simpa using htexts text htext
  have halternatives : (compiled.mode index).alternatives
        ((compiled.mode index).contains.map compiled.mode) =
      (compiled.beginSources index ++ [(compiled.mode index).terminatorEnd] ++
        compiled.illegalSources index).filter (!·.isEmpty) := by
    rw [List.append_assoc]
    rfl
  rw [halternatives, List.filter_append, List.filter_append, hkeep (h.beginSources_ne_empty hp),
    hkeep (h.illegalSources_ne_empty hp), hjoined, List.filter_singleton,
    isEmpty_intercalate hends]
  cases ends <;> rfl

/-- The text of the terminators, with the ends as one pattern. -/
theorem terminators_text (hp : origins[index]? = some p) {ends : List String} {t : Pattern}
    (hends : ∀ source ∈ ends, source ≠ "")
    (hjoined : (compiled.mode index).terminatorEnd = "|".intercalate ends)
    (ht : (compiled.mode index).terminators = some t) :
    t.text = patternFlags ci ++ compose
      (compiled.beginSources index ++ (if ends = [] then [] else ["|".intercalate ends]) ++
        compiled.illegalSources index) "|" := by
  obtain ⟨children, hchildren, hterminators⟩ := (h.complete_mode hp).terminators
  have hshells : children =
      ((compiled.mode index).contains.map compiled.mode).map CompiledMode.shell := by
    have hmap : (compiled.mode index).contains.map (shellAt (compiled.modes.map Slot.compiled)) =
        (((compiled.mode index).contains.map compiled.mode).map CompiledMode.shell).map some := by
      rw [List.map_map, List.map_map]
      apply List.map_congr_left
      intro j hj
      obtain ⟨q, -, hq⟩ := (h.complete_mode hp).contains.exists_origin hj
      exact h.shellAt_eq hq
    exact List.map_injective_iff.2 (fun _ _ => Option.some.inj) (hchildren.symm.trans hmap)
  rw [hshells, CompiledMode.compileTerminators_map_shell, CompiledMode.compileTerminators,
    h.alternatives_eq hp hends hjoined, ht] at hterminators
  split at hterminators
  · cases hterminators
  · obtain ⟨found, hfound, heq⟩ := map_eq_ok.1 hterminators
    cases heq
    exact compilePattern_text hfound

end Placed

theorem lt_size_of_terminators {t : Pattern} (ht : (compiled.mode index).terminators = some t) :
    index < compiled.size := by
  by_contra hge
  rw [CompiledGrammar.mode, Array.getElem?_eq_none (Nat.le_of_not_lt hge)] at ht
  cases ht

end

/-- **What the terminators are.** They are composed of the begins of the modes inside, the joined
ends, and what is illegal. If all ends but the last are closed, this is the composition of the
begins, each of the ends, and what is illegal, exactly if every end with a reference in range has no
groups in the ends before it, up to the bound of references. -/
theorem terminators_text_eq_iff {g : Grammar} {ci : Bool} {compiled : CompiledGrammar}
    (hok : g.compile ci = .ok compiled) {index : ModeIndex} {t : Pattern}
    (ht : (compiled.mode index).terminators = some t) :
    ∃ ends, compiled.Ends index ends ∧
      (compiled.mode index).terminatorEnd = "|".intercalate ends ∧
      t.text = patternFlags ci ++ compose
        (compiled.beginSources index ++ (if ends = [] then [] else ["|".intercalate ends]) ++
          compiled.illegalSources index) "|" ∧
      ((∀ source ∈ ends.dropLast, Closed source) →
        (t.text = patternFlags ci ++ compose
            (compiled.beginSources index ++ ends ++ compiled.illegalSources index) "|" ↔
          ∀ before source after, ends = before ++ source :: after → HasReference source →
            groupTotal before % Piece.referenceBound = 0)) := by
  obtain ⟨-, origins, h, -⟩ := Grammar.placed_of_compile hok
  obtain ⟨p, hp⟩ := h.exists_origin (lt_size_of_terminators ht)
  obtain ⟨ends, hends, hne, hjoined⟩ := h.exists_ends hp
  have htext := h.terminators_text hp hne hjoined ht
  refine ⟨ends, hends, hjoined, htext, ?_⟩
  intro hclosed
  have hundisturbed := undisturbed_iff 0 ends
  simp only [Nat.zero_add] at hundisturbed
  rw [htext, ← hundisturbed]
  by_cases hempty : ends = []
  · simp [hempty, Undisturbed]
  · rw [if_neg hempty, String.append_right_inj]
    exact compose_intercalate_eq_iff hempty hclosed

/-- A mode that ends with its parent, where the ends of both refer to groups of their own. -/
def sampleInherited : Grammar :=
  ⟨#[{ contains := [.mode 1], lexemes := some "z" },
    { className := some "outer", beginPattern := some "<", endPattern := some "(b)\\1",
      lexemes := some "z", contains := [.mode 2] },
    { className := some "inner", beginPattern := some "x", endPattern := some "(a)\\1",
      lexemes := some "z", flags := { endsWithParent := true } }], by decide⟩

/-- The outer mode's own end is its only one, and its reference is renumbered right. -/
theorem terminators_text_eq_iff_sample :
    ∃ compiled t, sampleInherited.compile false = .ok compiled ∧
      (compiled.mode 1).terminators = some t ∧
      compiled.Ends 1 ["(b)\\1"] ∧
      t.text = patternFlags false ++ compose
        (compiled.beginSources 1 ++ ["(b)\\1"] ++ compiled.illegalSources 1) "|" := by
  obtain ⟨compiled, hok, hfacts⟩ := exists_of_any (show (sampleInherited.compile false).toOption.any
    (fun c => (c.mode 1).begins.isSome && (c.mode 1).terminators.isSome &&
      !(c.mode 1).flags.endsWithParent &&
      (c.mode 1).ends.map (·.source) == some "(b)\\1") = true by decide +kernel)
  simp only [Bool.and_eq_true, Bool.not_eq_true', beq_iff_eq] at hfacts
  obtain ⟨⟨⟨hbegins, hterminators⟩, hparent⟩, hown⟩ := hfacts
  obtain ⟨t, ht⟩ := Option.isSome_iff_exists.1 hterminators
  obtain ⟨ends, hends, -, -, hiff⟩ := terminators_text_eq_iff hok ht
  have hsingle : ends = ["(b)\\1"] := by
    cases hends with
    | top hnone => simp [hnone] at hbegins
    | inside => simp [hown, hparent]
  subst hsingle
  refine ⟨compiled, t, hok, ht, hends, (hiff (by simp)).2 ?_⟩
  intro before source after hsplit _
  cases before with
  | nil => rfl
  | cons first others => simp at hsplit

/-- The reference in the outer end points at the group of the inner one. -/
theorem terminators_text_disturbed :
    ∃ compiled t, sampleInherited.compile false = .ok compiled ∧
      (compiled.mode 2).terminators = some t ∧
      compiled.Ends 2 ["(a)\\1", "(b)\\1"] ∧
      t.text = "(?m)(a)\\1|(b)\\1" ∧
      patternFlags false ++ compose (compiled.beginSources 2 ++ ["(a)\\1", "(b)\\1"] ++
        compiled.illegalSources 2) "|" = "(?m)(a)\\1|(b)\\2" := by
  obtain ⟨compiled, hok, hfacts⟩ := exists_of_any (show (sampleInherited.compile false).toOption.any
    (fun c => (c.mode 0).contains == [1] && (c.mode 0).begins.isNone &&
      (c.mode 1).contains == [2] && (c.mode 1).begins.isSome &&
      !(c.mode 1).flags.endsWithParent && (c.mode 1).ends.map (·.source) == some "(b)\\1" &&
      (c.mode 2).contains == [] && (c.mode 2).begins.isSome && (c.mode 2).illegal.isNone &&
      (c.mode 2).flags.endsWithParent && (c.mode 2).ends.map (·.source) == some "(a)\\1" &&
      (c.mode 2).terminators.map (·.text) == some "(?m)(a)\\1|(b)\\1") = true by decide +kernel)
  simp only [Bool.and_eq_true, Bool.not_eq_true', beq_iff_eq, Option.isNone_iff_eq_none] at hfacts
  obtain ⟨⟨⟨⟨⟨⟨⟨⟨⟨⟨⟨hcontains₀, hbegins₀⟩, hcontains₁⟩, hbegins₁⟩, hparent₁⟩, hown₁⟩, hcontains₂⟩,
    hbegins₂⟩, hillegal₂⟩, hparent₂⟩, hown₂⟩, htext⟩ := hfacts
  obtain ⟨t, ht, htext⟩ := Option.map_eq_some_iff.1 htext
  have hends₁ : compiled.Ends 1 ["(b)\\1"] := by
    have hinside := CompiledGrammar.Ends.inside (.contains (by simp [hcontains₀])) hbegins₁
      (.top hbegins₀)
    simpa [hown₁, hparent₁] using hinside
  have hends₂ : compiled.Ends 2 ["(a)\\1", "(b)\\1"] := by
    have hinside := CompiledGrammar.Ends.inside (.contains (by simp [hcontains₁])) hbegins₂ hends₁
    simpa [hown₂, hparent₂] using hinside
  refine ⟨compiled, t, hok, ht, hends₂, htext, ?_⟩
  have hbegin : compiled.beginSources 2 = [] := by simp [CompiledGrammar.beginSources, hcontains₂]
  have hillegal : compiled.illegalSources 2 = [] := by
    simp [CompiledGrammar.illegalSources, hillegal₂]
  rw [hbegin, hillegal]
  decide +kernel

end LexicalModes
