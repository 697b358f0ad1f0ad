import Mathlib.Data.List.Perm.Basic
import LexicalModes.Definition
import LexicalModes.Proofs.Outcomes

/-!
Reading a definition back from the modes it was converted to. In a grammar whose first modes are the
root and the declared ones, a number stands for the name it was given to, and any other number for
the mode that it leads to, written in place (`Grammar.unfoldReference`). Converting a definition
adds the modes written inside it, so that every new number is referred to from one place and the
definition can be read back (`Loads`); what is converted later only adds more, so this is put
together from the parts of the definition in the order in which they are converted.
-/

namespace LexicalModes

/-! ### Modes written in place -/

mutual

/-- Number of modes written in place inside the mode, at any depth and also in variants. -/
def ModeDefinition.inlineCount : ModeDefinition → Nat
  | ⟨_, contains, variants, starts⟩ =>
    inlineCountAmong contains + inlineCountInside variants + inlineCountOfStarts starts

/-- Number of modes written in place by the reference. -/
def Reference.inlineCount : Reference → Nat
  | .named _ => 0
  | .inline mode => mode.inlineCount + 1

/-- Number of modes written in place by the references. -/
def inlineCountAmong : List Reference → Nat
  | [] => 0
  | reference :: rest => reference.inlineCount + inlineCountAmong rest

/-- Number of modes written in place inside any of the modes. -/
def inlineCountInside : List ModeDefinition → Nat
  | [] => 0
  | mode :: rest => mode.inlineCount + inlineCountInside rest

/-- Number of modes written in place by what follows, if anything does. -/
def inlineCountOfStarts : Option Reference → Nat
  | none => 0
  | some reference => reference.inlineCount

end

/-- Number of modes written in place anywhere in the definition. -/
def LanguageDefinition.inlineCount (d : LanguageDefinition) : Nat :=
  inlineCountInside d.modes.values + d.root.inlineCount

/-! ### Numbers that occur in modes -/

/-- The number of the mode that an entry leads to. -/
def Contained.id? : Contained → Option ModeId
  | .this => none
  | .mode id => some id

mutual

/-- The numbers that occur in the mode and in its variants. -/
def Mode.references : Mode → List ModeId
  | ⟨_, contains, variants, starts⟩ =>
    contains.filterMap Contained.id? ++ variantReferences variants ++ starts.toList

/-- The numbers that occur in the variants. -/
def variantReferences : List Mode → List ModeId
  | [] => []
  | variant :: rest => variant.references ++ variantReferences rest

end

/-- The numbers that occur in the grammar. -/
def Grammar.references (g : Grammar) : List ModeId := g.modes.toList.flatMap Mode.references

/-! ### Reading back -/

/-- The reference that an entry stands for. No entry for a mode is read as a reference to the
containing one. -/
def Contained.unfoldWith (reference : ModeId → Option Reference) : Contained → Option Reference
  | .this => some (.named selfName)
  | .mode id => do
    match ← reference id with
    | .named name => if name = selfName then none else return .named name
    | .inline definition => return .inline definition

mutual

/-- The definition of the mode, given the references that numbers stand for. -/
def Mode.unfoldWith (reference : ModeId → Option Reference) : Mode → Option ModeDefinition
  | ⟨traits, contains, variants, starts⟩ => do
    let contains ← contains.mapM (Contained.unfoldWith reference)
    let variants ← unfoldVariants reference variants
    let starts ← starts.mapM reference
    return ⟨traits, contains, variants, starts⟩

/-- The definitions of the variants. -/
def unfoldVariants (reference : ModeId → Option Reference) :
    List Mode → Option (List ModeDefinition)
  | [] => some []
  | variant :: rest => do
    let first ← variant.unfoldWith reference
    let others ← unfoldVariants reference rest
    return first :: others

end

/-- The name that a number was given to, if the names are numbered from one on. -/
def nameOf? (names : List String) (id : ModeId) : Option String :=
  if id = 0 then none else names[id - 1]?

namespace Grammar

/-- The reference that a number stands for: the name it was given to, or else the mode that it leads
to, written in place. Modes in place may be nested so deep. -/
def unfoldReference (g : Grammar) (names : List String) : Nat → ModeId → Option Reference
  | 0, _ => none
  | depth + 1, id =>
    match nameOf? names id with
    | some name => some (.named name)
    | none => do
      let mode ← g.get? id
      let definition ← mode.unfoldWith (g.unfoldReference names depth)
      return .inline definition

/-- The definition of the mode that a number leads to. -/
def unfold (g : Grammar) (names : List String) (id : ModeId) : Option ModeDefinition := do
  let mode ← g.get? id
  mode.unfoldWith (g.unfoldReference names g.size)

/-- The modes written in place, which come after the root and the declared modes. -/
def inPlace (g : Grammar) (names : List String) : List Mode :=
  g.modes.toList.drop (names.length + 1)

theorem get?_of_inPlace {g : Grammar} {names : List String} {id : ModeId}
    (hid : names.length < id) : g.get? id = (g.inPlace names)[id - (names.length + 1)]? := by
  have hsum : names.length + 1 + (id - (names.length + 1)) = id := by omega
  rw [inPlace, List.getElem?_drop, hsum, get?, Array.getElem?_toList]

theorem inPlace_of_append {g g' : Grammar} {names : List String} {added : List Mode}
    (h : g'.modes.toList = g.modes.toList ++ added) (hg : names.length < g.size) :
    g'.inPlace names = g.inPlace names ++ added := by
  have hle : names.length + 1 ≤ g.modes.toList.length := by
    rw [Array.length_toList]
    exact hg
  rw [inPlace, h, List.drop_append_of_le_length hle]
  rfl

end Grammar

/-! ### What a conversion adds -/

/-- The names with their numbers. -/
def numbered (names : List String) : ModeNames := names.zip (List.range' 1 names.length)

/-- The grammar has been extended by modes, and numbers were found on the way. The new numbers occur
once each among those found and those in the added modes, all others are in range, and in every
grammar that goes on from this one what was converted is read back. -/
structure Loads (names : List String) (g g' : Grammar) (added : List Mode) (found : List ModeId)
    (ReadBack : (ModeId → Option Reference) → Prop) : Prop where
  modes : g'.modes.toList = g.modes.toList ++ added
  fresh : ((added.flatMap Mode.references ++ found).filter (names.length < ·)).Perm
    (List.range' g.size added.length)
  bounded : ∀ id : Nat, id ∈ added.flatMap Mode.references ++ found → 0 < id ∧ id < g'.size
  readBack : ∀ (later : Grammar) (depth : Nat), g'.inPlace names <+: later.inPlace names →
    g'.size ≤ depth → ReadBack (later.unfoldReference names depth)

namespace Loads

variable {names : List String} {g g' g₁ g₂ : Grammar} {added first second : List Mode}
  {found foundFirst foundSecond : List ModeId}
  {ReadBack ReadFirst ReadSecond : (ModeId → Option Reference) → Prop}

theorem size (h : Loads names g g' added found ReadBack) : g'.size = g.size + added.length := by
  rw [Grammar.size, ← Array.length_toList, h.modes, List.length_append, Array.length_toList]
  rfl

theorem lt_size (h : Loads names g g' added found ReadBack) (hg : names.length < g.size) :
    names.length < g'.size := by
  rw [h.size]
  omega

theorem inPlace (h : Loads names g g' added found ReadBack) (hg : names.length < g.size) :
    g'.inPlace names = g.inPlace names ++ added :=
  Grammar.inPlace_of_append h.modes hg

theorem imp (h : Loads names g g' added found ReadFirst)
    (himp : ∀ reference, ReadFirst reference → ReadSecond reference) :
    Loads names g g' added found ReadSecond :=
  ⟨h.modes, h.fresh, h.bounded, fun later depth hlater hdepth =>
    himp _ (h.readBack later depth hlater hdepth)⟩

/-- Nothing is added. -/
theorem unchanged (hfound : ∀ id : Nat, id ∈ found → 0 < id ∧ id ≤ names.length)
    (hg : names.length < g.size)
    (hread : ∀ (later : Grammar) (depth : Nat), 0 < depth →
      ReadBack (later.unfoldReference names depth)) :
    Loads names g g [] found ReadBack where
  modes := (List.append_nil _).symm
  fresh := by
    have hnone : found.filter (names.length < ·) = [] := by
      rw [List.filter_eq_nil_iff]
      intro id hid
      have := (hfound id hid).2
      simpa using this
    rw [List.flatMap_nil, List.nil_append, hnone]
    exact List.Perm.refl _
  bounded := by
    intro id hid
    have := hfound id hid
    omega
  readBack := fun later depth _ hdepth => hread later depth (by omega)

/-- One conversion after another. -/
theorem append (hfirst : Loads names g g₁ first foundFirst ReadFirst)
    (hsecond : Loads names g₁ g₂ second foundSecond ReadSecond) (hg : names.length < g.size) :
    Loads names g g₂ (first ++ second) (foundFirst ++ foundSecond)
      fun reference => ReadFirst reference ∧ ReadSecond reference where
  modes := by rw [hsecond.modes, hfirst.modes, List.append_assoc]
  fresh := by
    have hsorted : ((first ++ second).flatMap Mode.references ++ (foundFirst ++ foundSecond)).Perm
        ((first.flatMap Mode.references ++ foundFirst) ++
          (second.flatMap Mode.references ++ foundSecond)) := by
      rw [List.flatMap_append, List.append_assoc, List.append_assoc]
      refine List.Perm.append_left _ ?_
      rw [← List.append_assoc, ← List.append_assoc]
      exact List.perm_append_comm.append_right _
    refine (hsorted.filter _).trans ?_
    rw [List.filter_append, List.length_append, ← List.range'_append_1, ← hfirst.size]
    exact hfirst.fresh.append hsecond.fresh
  bounded := by
    have hsize := hsecond.size
    intro id hid
    rw [List.flatMap_append] at hid
    have hcases : id ∈ first.flatMap Mode.references ++ foundFirst ∨
        id ∈ second.flatMap Mode.references ++ foundSecond := by
      simp only [List.mem_append] at hid ⊢
      tauto
    rcases hcases with hid | hid
    · have hbounds := hfirst.bounded id hid
      omega
    · exact hsecond.bounded id hid
  readBack := by
    intro later depth hlater hdepth
    have hsize := hsecond.size
    have hkept : g₁.inPlace names <+: g₂.inPlace names := by
      rw [hsecond.inPlace (hfirst.lt_size hg)]
      exact List.prefix_append _ _
    exact ⟨hfirst.readBack later depth (hkept.trans hlater) (by omega),
      hsecond.readBack later depth hlater hdepth⟩

/-- A mode written in place is added behind the modes inside it. -/
theorem add {mode : Mode} {definition : ModeDefinition}
    (h : Loads names g g' added mode.references
      fun reference => mode.unfoldWith reference = some definition)
    (hg : names.length < g.size) :
    Loads names g (g'.add mode).1 (added ++ [mode]) [g'.size]
      fun reference => reference g'.size = some (.inline definition) where
  modes := by
    rw [Grammar.add, Array.toList_push, h.modes, List.append_assoc]
  fresh := by
    have hnew : names.length < g'.size := h.lt_size hg
    rw [List.flatMap_append, List.flatMap_singleton, List.filter_append, List.length_append,
      List.filter_cons_of_pos (by simpa using hnew), List.filter_nil, ← List.range'_append_1,
      h.size]
    exact h.fresh.append_right _
  bounded := by
    have hsize : (g'.add mode).1.size = g'.size + 1 := Array.size_push _
    have hpos : 0 < g'.size := g'.size_pos
    intro id hid
    rw [List.flatMap_append, List.flatMap_singleton] at hid
    rcases List.mem_append.1 hid with hid | hid
    · have hbounds := h.bounded id hid
      omega
    · rw [List.mem_singleton.1 hid]
      omega
  readBack := by
    intro later depth hlater hdepth
    have hsize : (g'.add mode).1.size = g'.size + 1 := Array.size_push _
    have hnew : names.length < g'.size := h.lt_size hg
    have hplaced : (g'.add mode).1.inPlace names = g'.inPlace names ++ [mode] :=
      Grammar.inPlace_of_append Array.toList_push hnew
    rw [hplaced] at hlater
    have hmode : later.get? g'.size = some mode := by
      obtain ⟨rest, hrest⟩ := hlater
      have hlength : (g'.inPlace names).length = g'.size - (names.length + 1) := by
        rw [Grammar.inPlace, List.length_drop, Array.length_toList]
        rfl
      rw [Grammar.get?_of_inPlace hnew, ← hrest, List.append_assoc, ← hlength,
        List.getElem?_append_right (Nat.le_refl _), Nat.sub_self]
      rfl
    have hname : nameOf? names g'.size = none := by
      rw [nameOf?]
      split
      · rfl
      · exact List.getElem?_eq_none (by omega)
    obtain ⟨depth, rfl⟩ : ∃ n, depth = n + 1 := ⟨depth - 1, by omega⟩
    have hread := h.readBack later depth ((List.prefix_append _ _).trans hlater) (by omega)
    simp only [Grammar.unfoldReference, hname, hmode, hread, Option.bind_eq_bind,
      Option.bind_some]
    rfl

end Loads

/-! ### Converting -/

theorem lookup_zip_range' {names : List String} {name : String} {start id : Nat}
    (h : (names.zip (List.range' start names.length)).lookup name = some id) :
    start ≤ id ∧ names[id - start]? = some name := by
  induction names generalizing start with
  | nil => cases h
  | cons first rest ih =>
      rw [List.length_cons, List.range'_succ, List.zip_cons_cons, List.lookup_cons] at h
      split at h
      case h_1 heq =>
        cases h
        rw [beq_iff_eq.1 heq, Nat.sub_self]
        exact ⟨Nat.le_refl _, rfl⟩
      case h_2 =>
        obtain ⟨hle, hname⟩ := ih h
        have hsucc : id - start = (id - (start + 1)) + 1 := by omega
        rw [hsucc, List.getElem?_cons_succ]
        exact ⟨by omega, hname⟩

theorem nameOf?_of_lookup {names : List String} {name : String} {id : Nat}
    (h : (numbered names).lookup name = some id) :
    0 < id ∧ id ≤ names.length ∧ nameOf? names id = some name := by
  have hfound : 1 ≤ id ∧ names[id - 1]? = some name := lookup_zip_range' h
  obtain ⟨hpos, hname⟩ := hfound
  obtain ⟨hlt, -⟩ := List.getElem?_eq_some_iff.1 hname
  refine ⟨hpos, by omega, ?_⟩
  rw [nameOf?, if_neg (Nat.ne_of_gt hpos)]
  exact hname

section Convert

variable {names : List String}

/-- A declared name is read back from its number. -/
theorem unfoldReference_of_lookup {name : String} {id : Nat}
    (h : (numbered names).lookup name = some id) (g : Grammar) {depth : Nat} (hdepth : 0 < depth) :
    g.unfoldReference names depth id = some (.named name) := by
  obtain ⟨-, -, hname⟩ := nameOf?_of_lookup h
  cases depth with
  | zero => exact absurd hdepth (Nat.lt_irrefl 0)
  | succ depth => simp only [Grammar.unfoldReference, hname]

mutual

/-- **Converting a mode** adds the modes written inside it. -/
theorem ModeDefinition.loads_convert {g g' : Grammar} {mode : Mode} (hg : names.length < g.size) :
    ∀ definition : ModeDefinition, definition.convert (numbered names) g = .ok (g', mode) →
      ∃ added, added.length = definition.inlineCount ∧ Loads names g g' added mode.references
        fun reference => mode.unfoldWith reference = some definition
  | ⟨traits, contains, variants, starts⟩, h => by
      rw [ModeDefinition.convert] at h
      obtain ⟨⟨g₁, entries⟩, hentries, h⟩ := bind_eq_ok.1 h
      obtain ⟨⟨g₂, modes⟩, hmodes, h⟩ := bind_eq_ok.1 h
      obtain ⟨⟨g₃, following⟩, hfollowing, h⟩ := bind_eq_ok.1 h
      cases h
      obtain ⟨first, hfirst, hloadsFirst⟩ := loads_convertContained hg contains hentries
      have hg₁ : names.length < g₁.size := hloadsFirst.lt_size hg
      obtain ⟨second, hsecond, hloadsSecond⟩ := loads_convertVariants hg₁ variants hmodes
      have hg₂ : names.length < g₂.size := hloadsSecond.lt_size hg₁
      obtain ⟨third, hthird, hloadsThird⟩ := loads_convertStarts hg₂ starts hfollowing
      refine ⟨first ++ second ++ third, ?_,
        ((hloadsFirst.append hloadsSecond hg).append hloadsThird hg).imp ?_⟩
      · rw [List.length_append, List.length_append, hfirst, hsecond, hthird,
          ModeDefinition.inlineCount]
      · rintro reference ⟨⟨hcontains, hvariants⟩, hstarts⟩
        simp only [Mode.unfoldWith, hcontains, hvariants, hstarts]
        rfl

theorem Reference.loads_resolve {g g' : Grammar} {id : ModeId} (hg : names.length < g.size) :
    ∀ reference : Reference, reference.resolve (numbered names) g = .ok (g', id) →
      ∃ added, added.length = reference.inlineCount ∧
        Loads names g g' added [id] fun unfolded => unfolded id = some reference
  | .named name, h => by
      rw [Reference.resolve] at h
      split at h
      case h_1 found hfound =>
        cases h
        obtain ⟨hpos, hle, -⟩ := nameOf?_of_lookup hfound
        refine ⟨[], rfl, .unchanged ?_ hg fun later depth hdepth => ?_⟩
        · intro other hother
          rw [List.mem_singleton.1 hother]
          exact ⟨hpos, hle⟩
        · exact unfoldReference_of_lookup hfound later hdepth
      case h_2 => cases h
  | .inline definition, h => by
      rw [Reference.resolve] at h
      obtain ⟨⟨g₁, mode⟩, hmode, h⟩ := bind_eq_ok.1 h
      cases h
      obtain ⟨added, hadded, hloads⟩ := definition.loads_convert hg hmode
      refine ⟨added ++ [mode], ?_, hloads.add hg⟩
      rw [List.length_append, hadded, Reference.inlineCount]
      rfl

theorem Reference.loads_toContained {g g' : Grammar} {entry : Contained}
    (hg : names.length < g.size) :
    ∀ reference : Reference, reference.toContained (numbered names) g = .ok (g', entry) →
      ∃ added, added.length = reference.inlineCount ∧ Loads names g g' added entry.id?.toList
        fun unfolded => entry.unfoldWith unfolded = some reference
  | .named name, h => by
      rw [Reference.toContained] at h
      split at h
      case isTrue hself =>
        cases h
        refine ⟨[], rfl, .unchanged (fun id hid => ?_) hg fun later depth hdepth => ?_⟩
        · cases hid
        · rw [hself]
          rfl
      case isFalse hself =>
        split at h
        case h_1 found hfound =>
          cases h
          obtain ⟨hpos, hle, -⟩ := nameOf?_of_lookup hfound
          refine ⟨[], rfl, .unchanged ?_ hg fun later depth hdepth => ?_⟩
          · intro other hother
            rw [List.mem_singleton.1 hother]
            exact ⟨hpos, hle⟩
          · simp only [Contained.unfoldWith, unfoldReference_of_lookup hfound later hdepth]
            exact if_neg hself
        case h_2 => cases h
  | .inline definition, h => by
      rw [Reference.toContained] at h
      obtain ⟨⟨g₁, mode⟩, hmode, h⟩ := bind_eq_ok.1 h
      cases h
      obtain ⟨added, hadded, hloads⟩ := definition.loads_convert hg hmode
      refine ⟨added ++ [mode], ?_, (hloads.add hg).imp fun unfolded hunfolded => ?_⟩
      · rw [List.length_append, hadded, Reference.inlineCount]
        rfl
      · change Contained.unfoldWith unfolded (.mode g₁.size) = _
        simp only [Contained.unfoldWith, hunfolded]
        rfl

theorem loads_convertContained {g g' : Grammar} {entries : List Contained}
    (hg : names.length < g.size) :
    ∀ references : List Reference,
      convertContained (numbered names) g references = .ok (g', entries) →
      ∃ added, added.length = inlineCountAmong references ∧
        Loads names g g' added (entries.filterMap Contained.id?)
          fun unfolded => entries.mapM (Contained.unfoldWith unfolded) = some references
  | [], h => by
      rw [convertContained] at h
      cases h
      exact ⟨[], rfl, .unchanged (fun id hid => by cases hid) hg fun _ _ _ => rfl⟩
  | reference :: rest, h => by
      rw [convertContained] at h
      obtain ⟨⟨g₁, entry⟩, hentry, h⟩ := bind_eq_ok.1 h
      obtain ⟨⟨g₂, others⟩, hothers, h⟩ := bind_eq_ok.1 h
      cases h
      obtain ⟨first, hfirst, hloadsFirst⟩ := reference.loads_toContained hg hentry
      have hg₁ : names.length < g₁.size := hloadsFirst.lt_size hg
      obtain ⟨second, hsecond, hloadsSecond⟩ := loads_convertContained hg₁ rest hothers
      have hfound : (entry :: others).filterMap Contained.id? =
          entry.id?.toList ++ others.filterMap Contained.id? := by
        cases entry <;> rfl
      refine ⟨first ++ second, ?_, ?_⟩
      · rw [List.length_append, hfirst, hsecond, inlineCountAmong]
      · rw [hfound]
        refine (hloadsFirst.append hloadsSecond hg).imp ?_
        rintro unfolded ⟨hentry, hothers⟩
        rw [List.mapM_cons, hentry, hothers]
        rfl

theorem loads_convertVariants {g g' : Grammar} {modes : List Mode} (hg : names.length < g.size) :
    ∀ variants : List ModeDefinition,
      convertVariants (numbered names) g variants = .ok (g', modes) →
      ∃ added, added.length = inlineCountInside variants ∧
        Loads names g g' added (variantReferences modes)
          fun reference => unfoldVariants reference modes = some variants
  | [], h => by
      rw [convertVariants] at h
      cases h
      exact ⟨[], rfl, .unchanged (fun id hid => by cases hid) hg fun _ _ _ => rfl⟩
  | variant :: rest, h => by
      rw [convertVariants] at h
      obtain ⟨⟨g₁, mode⟩, hmode, h⟩ := bind_eq_ok.1 h
      obtain ⟨⟨g₂, others⟩, hothers, h⟩ := bind_eq_ok.1 h
      cases h
      obtain ⟨first, hfirst, hloadsFirst⟩ := variant.loads_convert hg hmode
      have hg₁ : names.length < g₁.size := hloadsFirst.lt_size hg
      obtain ⟨second, hsecond, hloadsSecond⟩ := loads_convertVariants hg₁ rest hothers
      refine ⟨first ++ second, ?_, (hloadsFirst.append hloadsSecond hg).imp ?_⟩
      · rw [List.length_append, hfirst, hsecond, inlineCountInside]
      · rintro reference ⟨hvariant, hrest⟩
        simp only [unfoldVariants, hvariant, hrest]
        rfl

theorem loads_convertStarts {g g' : Grammar} {following : Option ModeId}
    (hg : names.length < g.size) :
    ∀ starts : Option Reference, convertStarts (numbered names) g starts = .ok (g', following) →
      ∃ added, added.length = inlineCountOfStarts starts ∧
        Loads names g g' added following.toList
          fun reference => following.mapM reference = some starts
  | none, h => by
      rw [convertStarts] at h
      cases h
      exact ⟨[], rfl, .unchanged (fun id hid => by cases hid) hg fun _ _ _ => rfl⟩
  | some reference, h => by
      rw [convertStarts] at h
      obtain ⟨⟨g₁, id⟩, hid, h⟩ := bind_eq_ok.1 h
      cases h
      obtain ⟨added, hadded, hloads⟩ := reference.loads_resolve hg hid
      refine ⟨added, hadded, hloads.imp fun unfolded hunfolded => ?_⟩
      rw [Option.mapM_some, hunfolded]
      rfl

end

end Convert

end LexicalModes
