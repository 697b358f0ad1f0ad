import LexicalModes.Proofs.Definitions

/-!
Which name of a definition is reported as unknown. A definition refers to names in lists of
contained modes and where a mode says what follows it, at any depth (`ModeDefinition.RefersTo`).
Loading looks them up in one order (`LanguageDefinition.mentions`): the declared modes by name and
then the root, and in each mode the contained modes, the variants and the mode that follows, where a
mode written in place is gone through where it stands. `Reports` says that a part of the conversion
stops at the first of its names that is not declared, and is put together from the parts in the same
order.
-/

namespace LexicalModes

/-! ### Names in a definition -/

/-- The mode refers to the name, itself or in a mode written inside it. In a list of contained modes
`self` is not a name, but it is one for the mode that follows. -/
inductive ModeDefinition.RefersTo : ModeDefinition → String → Prop
  | contained {d : ModeDefinition} {name : String} : .named name ∈ d.contains → name ≠ selfName →
      RefersTo d name
  | follower {d : ModeDefinition} {name : String} : d.starts = some (.named name) → RefersTo d name
  | inContained {d inner : ModeDefinition} {name : String} : .inline inner ∈ d.contains →
      RefersTo inner name → RefersTo d name
  | inVariant {d variant : ModeDefinition} {name : String} : variant ∈ d.variants →
      RefersTo variant name → RefersTo d name
  | inFollower {d inner : ModeDefinition} {name : String} : d.starts = some (.inline inner) →
      RefersTo inner name → RefersTo d name

mutual

/-- The names that the mode refers to, in the order in which they are looked up. -/
def ModeDefinition.mentions : ModeDefinition → List String
  | ⟨_, contains, variants, starts⟩ =>
    mentionsAmong contains ++ mentionsInside variants ++ mentionsOfStarts starts

/-- The names that a reference to what follows leads to. -/
def Reference.mentions : Reference → List String
  | .named name => [name]
  | .inline mode => mode.mentions

/-- The names that a reference in a list of contained modes leads to. -/
def Reference.mentionsContained : Reference → List String
  | .named name => if name = selfName then [] else [name]
  | .inline mode => mode.mentions

/-- The names in a list of contained modes. -/
def mentionsAmong : List Reference → List String
  | [] => []
  | reference :: rest => reference.mentionsContained ++ mentionsAmong rest

/-- The names in variants. -/
def mentionsInside : List ModeDefinition → List String
  | [] => []
  | mode :: rest => mode.mentions ++ mentionsInside rest

/-- The names in what follows, if anything does. -/
def mentionsOfStarts : Option Reference → List String
  | none => []
  | some reference => reference.mentions

end

mutual

theorem ModeDefinition.mem_mentions {name : String} :
    ∀ d : ModeDefinition, name ∈ d.mentions ↔ d.RefersTo name
  | ⟨traits, contains, variants, starts⟩ => by
      rw [ModeDefinition.mentions, List.mem_append, List.mem_append, mem_mentionsAmong contains,
        mem_mentionsInside variants, mem_mentionsOfStarts starts]
      constructor
      · rintro (((⟨hname, hself⟩ | ⟨inner, hinner, hname⟩) | ⟨variant, hvariant, hname⟩) |
          (hname | ⟨inner, hinner, hname⟩))
        · exact .contained hname hself
        · exact .inContained hinner hname
        · exact .inVariant hvariant hname
        · exact .follower hname
        · exact .inFollower hinner hname
      · rintro (⟨hname, hself⟩ | hname | ⟨hinner, hname⟩ | ⟨hvariant, hname⟩ | ⟨hinner, hname⟩)
        · exact .inl (.inl (.inl ⟨hname, hself⟩))
        · exact .inr (.inl hname)
        · exact .inl (.inl (.inr ⟨_, hinner, hname⟩))
        · exact .inl (.inr ⟨_, hvariant, hname⟩)
        · exact .inr (.inr ⟨_, hinner, hname⟩)

theorem mem_mentionsAmong {name : String} : ∀ references : List Reference,
    name ∈ mentionsAmong references ↔ (.named name ∈ references ∧ name ≠ selfName) ∨
      ∃ inner, .inline inner ∈ references ∧ inner.RefersTo name
  | [] => by simp [mentionsAmong]
  | .named other :: rest => by
      rw [mentionsAmong, List.mem_append, mem_mentionsAmong rest, Reference.mentionsContained]
      by_cases hself : other = selfName
      · rw [if_pos hself]
        grind
      · rw [if_neg hself]
        grind
  | .inline mode :: rest => by
      rw [mentionsAmong, List.mem_append, mem_mentionsAmong rest, Reference.mentionsContained,
        mode.mem_mentions]
      grind

theorem mem_mentionsInside {name : String} : ∀ variants : List ModeDefinition,
    name ∈ mentionsInside variants ↔ ∃ variant ∈ variants, variant.RefersTo name
  | [] => by simp [mentionsInside]
  | variant :: rest => by
      rw [mentionsInside, List.mem_append, variant.mem_mentions, mem_mentionsInside rest]
      exact (List.exists_mem_cons_iff (·.RefersTo name) variant rest).symm

theorem mem_mentionsOfStarts {name : String} : ∀ starts : Option Reference,
    name ∈ mentionsOfStarts starts ↔ starts = some (.named name) ∨
      ∃ inner, starts = some (.inline inner) ∧ inner.RefersTo name
  | none => by simp [mentionsOfStarts]
  | some (.named other) => by
      simp [mentionsOfStarts, Reference.mentions, eq_comm]
  | some (.inline mode) => by
      simp [mentionsOfStarts, Reference.mentions, mode.mem_mentions]

end

namespace LanguageDefinition

/-- A declared mode or the root refers to the name. -/
def RefersTo (d : LanguageDefinition) (name : String) : Prop :=
  (∃ mode ∈ d.modes.values, mode.RefersTo name) ∨ d.root.RefersTo name

/-- The names that the definition refers to, in the order in which they are looked up. -/
def mentions (d : LanguageDefinition) : List String :=
  mentionsInside d.modes.values ++ d.root.mentions

theorem mem_mentions {d : LanguageDefinition} {name : String} :
    name ∈ d.mentions ↔ d.RefersTo name := by
  rw [mentions, List.mem_append, mem_mentionsInside, d.root.mem_mentions]
  rfl

end LanguageDefinition

/-! ### The first unknown name -/

/-- The first of the names that has no number. -/
def firstUnknown (names : ModeNames) (mentioned : List String) : Option String :=
  mentioned.find? fun name => (names.lookup name).isNone

/-- The computation fails exactly if one of the names has no number, and reports the first. -/
def Reports {α : Type} (names : ModeNames) (mentioned : List String) (x : Except UnknownMode α) :
    Prop :=
  ∀ e, x = .error e ↔ firstUnknown names mentioned = some e.name

section Reports

variable {α β : Type} {names : ModeNames} {first second : List String}

theorem reports_ok (a : α) : Reports names [] (.ok a) := fun e => by
  simp [firstUnknown]

theorem Reports.eq_none {a : α} (h : Reports names first (.ok a)) :
    firstUnknown names first = none := by
  cases hfirst : firstUnknown names first with
  | none => rfl
  | some name => cases (h ⟨name⟩).2 hfirst

/-- **One part after another.** The first unknown name of both is that of the first part, or if that
has none, of the second. -/
theorem Reports.bind {x : Except UnknownMode α} {f : α → Except UnknownMode β}
    (hx : Reports names first x) (hf : ∀ a, x = .ok a → Reports names second (f a)) :
    Reports names (first ++ second) (x >>= f) := by
  intro e
  rw [firstUnknown, List.find?_append, ← firstUnknown, ← firstUnknown]
  cases x with
  | error fault =>
      rw [(hx fault).1 rfl, Option.some_or, Option.some_inj]
      constructor
      · rintro ⟨⟩
        rfl
      · intro hname
        cases fault
        cases e
        cases hname
        rfl
  | ok a =>
      rw [hx.eq_none, Option.none_or]
      exact hf a rfl e

theorem Reports.bind_ok {x : Except UnknownMode α} {f : α → Except UnknownMode β}
    (hx : Reports names first x) (hf : ∀ a, x = .ok a → ∃ b, f a = .ok b) :
    Reports names first (x >>= f) := by
  rw [← List.append_nil first]
  refine hx.bind fun a ha => ?_
  obtain ⟨b, hb⟩ := hf a ha
  rw [hb]
  exact reports_ok b

/-- A name is looked up. -/
theorem reports_lookup (name : String) (found : ModeId → α) :
    Reports names [name]
      (match names.lookup name with
        | some id => .ok (found id)
        | none => .error ⟨name⟩) := by
  intro e
  cases hlookup : names.lookup name with
  | some id => simp [firstUnknown, hlookup]
  | none =>
      cases e
      simp [firstUnknown, hlookup]

end Reports

/-! ### Converting -/

section Convert

variable (names : ModeNames)

mutual

/-- **Converting a mode** stops at the first of its names that is unknown. -/
theorem ModeDefinition.reports_convert (g : Grammar) :
    ∀ definition : ModeDefinition, Reports names definition.mentions (definition.convert names g)
  | ⟨traits, contains, variants, starts⟩ => by
      rw [ModeDefinition.convert, ModeDefinition.mentions, List.append_assoc]
      refine (reports_convertContained g contains).bind fun entries _ => ?_
      refine (reports_convertVariants entries.1 variants).bind fun modes _ => ?_
      exact (reports_convertStarts modes.1 starts).bind_ok fun following _ => ⟨_, rfl⟩

theorem Reference.reports_resolve (g : Grammar) :
    ∀ reference : Reference, Reports names reference.mentions (reference.resolve names g)
  | .named name => by
      rw [Reference.resolve, Reference.mentions]
      exact reports_lookup name fun id => (g, id)
  | .inline mode => by
      rw [Reference.resolve, Reference.mentions]
      exact (mode.reports_convert g).bind_ok fun converted _ => ⟨_, rfl⟩

theorem Reference.reports_toContained (g : Grammar) :
    ∀ reference : Reference,
      Reports names reference.mentionsContained (reference.toContained names g)
  | .named name => by
      rw [Reference.toContained, Reference.mentionsContained]
      by_cases hself : name = selfName
      · rw [if_pos hself, if_pos hself]
        exact reports_ok _
      · rw [if_neg hself, if_neg hself]
        exact reports_lookup name fun id => (g, Contained.mode id)
  | .inline mode => by
      rw [Reference.toContained, Reference.mentionsContained]
      exact (mode.reports_convert g).bind_ok fun converted _ => ⟨_, rfl⟩

theorem reports_convertContained (g : Grammar) : ∀ references : List Reference,
    Reports names (mentionsAmong references) (convertContained names g references)
  | [] => by
      rw [convertContained, mentionsAmong]
      exact reports_ok _
  | reference :: rest => by
      rw [convertContained, mentionsAmong]
      refine (reference.reports_toContained g).bind fun entry _ => ?_
      exact (reports_convertContained entry.1 rest).bind_ok fun others _ => ⟨_, rfl⟩

theorem reports_convertVariants (g : Grammar) : ∀ variants : List ModeDefinition,
    Reports names (mentionsInside variants) (convertVariants names g variants)
  | [] => by
      rw [convertVariants, mentionsInside]
      exact reports_ok _
  | variant :: rest => by
      rw [convertVariants, mentionsInside]
      refine (variant.reports_convert g).bind fun mode _ => ?_
      exact (reports_convertVariants mode.1 rest).bind_ok fun others _ => ⟨_, rfl⟩

theorem reports_convertStarts (g : Grammar) : ∀ starts : Option Reference,
    Reports names (mentionsOfStarts starts) (convertStarts names g starts)
  | none => by
      rw [convertStarts, mentionsOfStarts]
      exact reports_ok _
  | some reference => by
      rw [convertStarts, mentionsOfStarts]
      exact (reference.reports_resolve g).bind_ok fun id _ => ⟨_, rfl⟩

end

end Convert

namespace LanguageDefinition

theorem reports_convertNamed (names : ModeNames) (g : Grammar)
    (entries : List (String × ModeDefinition)) :
    Reports names (mentionsInside (entries.map (·.2))) (convertNamed names g entries) := by
  induction entries generalizing g with
  | nil => exact reports_ok g
  | cons entry rest ih => exact (entry.2.reports_convert names g).bind fun mode _ => ih _

/-- **Loading a definition** stops at the first of its names that is unknown. -/
theorem reports_toLanguage (d : LanguageDefinition) :
    Reports d.modeNames d.mentions d.toLanguage := by
  rw [toLanguage, mentions]
  refine (reports_convertNamed d.modeNames d.places d.modes.entries).bind fun g _ => ?_
  exact (d.root.reports_convert d.modeNames g).bind_ok fun root _ => ⟨_, rfl⟩

/-- The names that have no number are those that are not declared. -/
theorem isNone_lookup_modeNames {d : LanguageDefinition} {name : String} :
    (d.modeNames.lookup name).isNone = true ↔ name ∉ d.modes.keys := by
  have hlength : d.modes.keys.length ≤ (List.range' 1 d.modes.size).length := by
    rw [List.length_range', OrderedMap.keys, List.length_map]
    exact Nat.le_refl _
  have hkeys : d.modeNames.map Prod.fst = d.modes.keys := List.map_fst_zip hlength
  rw [← hkeys, Option.isNone_iff_eq_none, List.lookup_eq_none_iff, List.mem_map]
  constructor
  · rintro hne ⟨entry, hentry, rfl⟩
    exact absurd (hne entry hentry) (by simp)
  · intro hname entry hentry
    rw [bne_iff_ne]
    rintro rfl
    exact hname ⟨entry, hentry, rfl⟩

/-- **Loading fails exactly on unknown names, and reports the first.** The names that are looked up
are those that the definition refers to, loading fails if and only if one of them is not declared,
and the name reported is the first of these. -/
theorem first_unknown_reported (d : LanguageDefinition) :
    (∀ name, name ∈ d.mentions ↔ d.RefersTo name) ∧
    ((∃ e, d.toLanguage = .error e) ↔ ∃ name, d.RefersTo name ∧ name ∉ d.modes.keys) ∧
    ∀ name, d.toLanguage = .error ⟨name⟩ ↔ ∃ before after, d.mentions = before ++ name :: after ∧
      (∀ other ∈ before, other ∈ d.modes.keys) ∧ name ∉ d.modes.keys := by
  have hfirst : ∀ name, d.toLanguage = .error ⟨name⟩ ↔ ∃ before after,
      d.mentions = before ++ name :: after ∧ (∀ other ∈ before, other ∈ d.modes.keys) ∧
        name ∉ d.modes.keys := by
    intro name
    rw [d.reports_toLanguage, firstUnknown, List.find?_eq_some_iff_append,
      isNone_lookup_modeNames]
    simp only [Bool.not_eq_true', ← Bool.not_eq_true, isNone_lookup_modeNames, not_not]
    constructor
    · rintro ⟨hunknown, before, after, hmentions, hbefore⟩
      exact ⟨before, after, hmentions, hbefore, hunknown⟩
    · rintro ⟨before, after, hmentions, hbefore, hunknown⟩
      exact ⟨hunknown, before, after, hmentions, hbefore⟩
  refine ⟨fun name => mem_mentions, ?_, hfirst⟩
  constructor
  · rintro ⟨⟨name⟩, he⟩
    obtain ⟨before, after, hmentions, -, hunknown⟩ := (hfirst name).1 he
    refine ⟨name, mem_mentions.1 ?_, hunknown⟩
    rw [hmentions]
    exact List.mem_append_right _ List.mem_cons_self
  · rintro ⟨name, hname, hunknown⟩
    cases hlanguage : d.toLanguage with
    | error e => exact ⟨e, rfl⟩
    | ok language =>
        have hreports := d.reports_toLanguage
        rw [hlanguage] at hreports
        have hnone := List.find?_eq_none.1 hreports.eq_none name (mem_mentions.2 hname)
        exact absurd (isNone_lookup_modeNames.2 hunknown) hnone

/-- The same word stands for the containing mode and for an unknown one. -/
example : toLanguage
    { name := "sample", root := { contains := [.named "self"], starts := some (.named "self") } } =
      .error ⟨"self"⟩ := rfl

end LanguageDefinition

end LexicalModes
