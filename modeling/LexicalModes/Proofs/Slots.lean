import LexicalModes.Proofs.Origins
import LexicalModes.Proofs.Outcomes

/-!
The slots of a workbench and the origins of what is in them. A slot is compiled in two stages: first
what its mode declares of itself, the `shell`, which never changes again, and at the end the modes
inside, the mode that follows and the terminators. Beside the slots runs a list of their origins,
and both only grow (`Grows`).
-/

namespace LexicalModes

/-! ### Shells -/

namespace CompiledMode

/-- What is compiled of a mode before the modes inside are. -/
def shell (c : CompiledMode) : CompiledMode :=
  { c with terminators := none, contains := [], starts := none }

/-- The terminators depend on no more than the shells. -/
theorem compileTerminators_map_shell (c : CompiledMode) (caseInsensitive : Bool)
    (children : List CompiledMode) :
    c.compileTerminators caseInsensitive (children.map shell) =
      c.compileTerminators caseInsensitive children := by
  have hbegins : (children.map shell).filterMap beginAlternative? =
      children.filterMap beginAlternative? := by
    rw [List.filterMap_map]
    rfl
  simp only [compileTerminators, alternatives, hbegins]

end CompiledMode

/-- A pattern is kept with the source it is made of. -/
theorem source_of_compileSourced {caseInsensitive : Bool} {source : String} {s : SourcedPattern}
    (h : compileSourced caseInsensitive source = .ok s) : s.source = source := by
  obtain ⟨p, -, hs⟩ := bind_eq_ok.1 h
  rw [← pure_eq_ok.1 hs]

theorem source_of_mapM_compileSourced {caseInsensitive : Bool} {source : Option String}
    {s : Option SourcedPattern} (h : source.mapM (compileSourced caseInsensitive) = .ok s) :
    s.map (·.source) = source := by
  cases source with
  | none =>
      rw [Option.mapM_none, pure_eq_ok] at h
      rw [← h, Option.map_none]
  | some source =>
      rw [Option.mapM_some] at h
      obtain ⟨a, ha, rfl⟩ := map_eq_ok.1 h
      rw [Option.map_some, source_of_compileSourced ha]

/-- What the shell takes from the mode it is made of. -/
theorem Mode.compileTraits_eq_ok {mode : Mode} {caseInsensitive : Bool} {parent : Option String}
    {c : CompiledMode} (h : mode.compileTraits caseInsensitive parent = .ok c) :
    c.className = nonempty? mode.className ∧
    c.illegal.map (·.source) = nonempty? mode.illegal ∧
    c.begins.map (·.source) = parent.map (fun _ => mode.beginSource) ∧
    c.ends.map (·.source) = parent.bind (fun _ => mode.endSource?) ∧
    c.terminatorEnd = (parent.map mode.terminatorEndWith).getD "" ∧
    mode.keywordList.mapM (·.table caseInsensitive) = .ok c.keywords ∧
    c.relevance = mode.relevance.getD 1 ∧
    c.subLanguage = mode.subLanguage ∧
    c.beginsWithKeywords = mode.beginKeywords.isSome ∧
    c.flags = mode.flags ∧ c.shell = c := by
  obtain ⟨keywords, hkeywords, h⟩ := bind_eq_ok.1 h
  obtain ⟨lexemes, -, h⟩ := bind_eq_ok.1 h
  cases parent with
  | none =>
      simp only [Option.isSome_none, Bool.false_eq_true, if_false] at h
      obtain ⟨begins, hbegins, h⟩ := bind_eq_ok.1 h
      obtain ⟨ends, hends, h⟩ := bind_eq_ok.1 h
      obtain ⟨illegal, hillegal, h⟩ := bind_eq_ok.1 h
      obtain rfl := pure_eq_ok.1 hbegins
      obtain rfl := pure_eq_ok.1 hends
      obtain rfl := pure_eq_ok.1 h
      exact ⟨rfl, source_of_mapM_compileSourced hillegal, rfl, rfl, rfl, hkeywords, rfl, rfl, rfl,
        rfl, rfl⟩
  | some inherited =>
      simp only [Option.isSome_some, if_true] at h
      obtain ⟨begins, hbegins, h⟩ := bind_eq_ok.1 h
      obtain ⟨ends, hends, h⟩ := bind_eq_ok.1 h
      obtain ⟨illegal, hillegal, h⟩ := bind_eq_ok.1 h
      obtain ⟨s, hs, rfl⟩ := map_eq_ok.1 hbegins
      obtain rfl := pure_eq_ok.1 h
      exact ⟨rfl, source_of_mapM_compileSourced hillegal,
        congrArg some (source_of_compileSourced hs), source_of_mapM_compileSourced hends, rfl,
        hkeywords, rfl, rfl, rfl, rfl, rfl⟩

/-- The shell in a slot, if its mode is at least begun. -/
def shellAt (slots : Array Slot) (index : ModeIndex) : Option CompiledMode :=
  match slots[index]? with
  | some (.compiled c) => some c.shell
  | _ => none

theorem shellAt_eq_some {slots : Array Slot} {index : ModeIndex} {s : CompiledMode} :
    shellAt slots index = some s ↔ ∃ c, slots[index]? = some (.compiled c) ∧ c.shell = s := by
  unfold shellAt
  split
  · rename_i c h
    simp [h]
  · rename_i h
    simp only [reduceCtorEq, false_iff]
    rintro ⟨c, hc, -⟩
    exact h c hc

theorem Workbench.compiledAt_eq_ok {w : Workbench} {index : ModeIndex} {c : CompiledMode} :
    w.compiledAt index = .ok c ↔ w.slots[index]? = some (.compiled c) := by
  unfold Workbench.compiledAt
  split
  · rename_i d h
    simp [h]
  · rename_i h
    simp only [reduceCtorEq, false_iff]
    exact h c

/-! ### Slots and their origins -/

/-- The slots hold modes of these origins, in this order. -/
def Located (origins : List Origin) (indices : List ModeIndex) (ps : List Origin) : Prop :=
  indices.map (origins[·]?) = ps.map some

/-- Slots are begun and origins added, and nothing is taken back. -/
structure Grows (slots : Array Slot) (origins : List Origin) (slots' : Array Slot)
    (origins' : List Origin) : Prop where
  origins : origins <+: origins'
  shells : ∀ {index : ModeIndex} {s : CompiledMode}, shellAt slots index = some s →
    shellAt slots' index = some s

section Growth

variable {slots slots' slots'' : Array Slot} {origins origins' origins'' : List Origin}

theorem getElem?_of_isPrefix (h : origins <+: origins') {index : ModeIndex} {p : Origin}
    (hp : origins[index]? = some p) : origins'[index]? = some p := by
  obtain ⟨more, rfl⟩ := h
  obtain ⟨hlt, -⟩ := List.getElem?_eq_some_iff.1 hp
  rw [List.getElem?_append_left hlt, hp]

theorem Grows.refl (slots : Array Slot) (origins : List Origin) :
    Grows slots origins slots origins :=
  ⟨List.prefix_refl _, id⟩

theorem Grows.trans (h : Grows slots origins slots' origins')
    (h' : Grows slots' origins' slots'' origins'') : Grows slots origins slots'' origins'' :=
  ⟨h.origins.trans h'.origins, fun hs => h'.shells (h.shells hs)⟩

theorem Located.nil : Located origins [] [] := rfl

theorem Located.append {indices others : List ModeIndex} {ps qs : List Origin}
    (h : Located origins indices ps) (h' : Located origins others qs) :
    Located origins (indices ++ others) (ps ++ qs) := by
  unfold Located at *
  rw [List.map_append, List.map_append, h, h']

theorem located_singleton {index : ModeIndex} {p : Origin} :
    Located origins [index] [p] ↔ origins[index]? = some p := by
  simp [Located]

theorem located_cons {index : ModeIndex} {indices : List ModeIndex} {ps : List Origin} :
    Located origins (index :: indices) ps ↔
      ∃ p qs, ps = p :: qs ∧ origins[index]? = some p ∧ Located origins indices qs := by
  cases ps with
  | nil => simp [Located]
  | cons p qs => simp [Located]

theorem Located.mem {indices : List ModeIndex} {ps : List Origin}
    (h : Located origins indices ps) {p : Origin} (hp : p ∈ ps) : p ∈ origins := by
  have hsome : some p ∈ indices.map (origins[·]?) := by
    rw [h]
    exact List.mem_map_of_mem hp
  obtain ⟨index, -, hindex⟩ := List.mem_map.1 hsome
  exact List.mem_of_getElem? hindex

theorem Located.exists_origin {indices : List ModeIndex} {ps : List Origin}
    (h : Located origins indices ps) {index : ModeIndex} (hindex : index ∈ indices) :
    ∃ p ∈ ps, origins[index]? = some p := by
  have hsome : origins[index]? ∈ ps.map some := by
    rw [← h]
    exact List.mem_map_of_mem hindex
  obtain ⟨p, hp, heq⟩ := List.mem_map.1 hsome
  exact ⟨p, hp, heq.symm⟩

theorem map_eq_map_some_mono {α β : Type} {f f' : α → Option β}
    (h : ∀ a b, f a = some b → f' a = some b) {as : List α} {bs : List β}
    (hbs : as.map f = bs.map some) : as.map f' = bs.map some := by
  induction as generalizing bs with
  | nil => exact hbs
  | cons a as ih =>
      cases bs with
      | nil => cases hbs
      | cons b bs =>
          obtain ⟨hb, hrest⟩ := List.cons.inj hbs
          rw [List.map_cons, h a b hb, ih hrest, List.map_cons]

theorem Located.mono (h : origins <+: origins') {indices : List ModeIndex} {ps : List Origin}
    (hps : Located origins indices ps) : Located origins' indices ps :=
  map_eq_map_some_mono (fun _ _ => getElem?_of_isPrefix h) hps

/-- Origins that are added go to the slots that are added. -/
theorem located_range' (origins added : List Origin) :
    Located (origins ++ added) (List.range' origins.length added.length) added := by
  apply List.ext_getElem?
  intro i
  by_cases hi : i < added.length
  · simp [hi]
  · simp [Nat.le_of_not_lt hi]

theorem idxOf_of_getElem? (hnodup : origins.Nodup) {index : ModeIndex} {p : Origin}
    (hp : origins[index]? = some p) : origins.idxOf p = index := by
  obtain ⟨hlt, rfl⟩ := List.getElem?_eq_some_iff.1 hp
  exact hnodup.idxOf_getElem index hlt

theorem index_unique (hnodup : origins.Nodup) {i j : ModeIndex} {p : Origin}
    (hi : origins[i]? = some p) (hj : origins[j]? = some p) : i = j := by
  rw [← idxOf_of_getElem? hnodup hi, idxOf_of_getElem? hnodup hj]

/-- Since no origin is there twice, a list of origins fixes the slots. -/
theorem Located.eq_map_idxOf (hnodup : origins.Nodup) {indices : List ModeIndex}
    {ps : List Origin} (h : Located origins indices ps) : indices = ps.map origins.idxOf := by
  induction indices generalizing ps with
  | nil =>
      have : ps = [] := by simpa [Located] using h.symm
      rw [this, List.map_nil]
  | cons index indices ih =>
      obtain ⟨p, qs, rfl, hp, hqs⟩ := located_cons.1 h
      rw [List.map_cons, ← ih hqs, idxOf_of_getElem? hnodup hp]

end Growth

end LexicalModes
