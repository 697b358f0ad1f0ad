import LexicalModes.Proofs.Placement

/-!
Compiling keeps the invariant of the workbench, operation by operation: the slot of a declared mode,
the slots an entry stands for, those of a whole list, and then the recursion (`ensure_sound`), in
which a slot is under way while the modes inside it are compiled and complete when they are. What is
left in the end is a part of the unfolding (`Grammar.placed_of_compile`).
-/

namespace LexicalModes

section Traversal

variable {g : Grammar} {ci : Bool} {origins : List Origin} {p : Origin}
  {underWay : List ModeIndex}

/-! ### One operation -/

namespace Workbench

variable {w w' : Workbench}

theorem reserve_eq (w : Workbench) (mode : Mode) :
    w.reserve mode = ({ w with slots := w.slots ++ ([mode].map Slot.reserved).toArray },
      w.slots.size) := by
  simp [reserve]

theorem reserveAll_eq (w : Workbench) (modes : List Mode) :
    w.reserveAll modes = ({ w with slots := w.slots ++ (modes.map Slot.reserved).toArray },
      List.range' w.slots.size modes.length) := by
  induction modes generalizing w with
  | nil => simp [reserveAll]
  | cons mode rest ih => simp [reserveAll, reserve, ih, List.range'_succ]

theorem declaration_eq_ok {id : ModeId} {mode : Mode} :
    declaration g id = .ok mode ↔ g.get? id = some mode := by
  unfold declaration
  split
  · rename_i other hother
    simp [hother]
  · rename_i hnone
    simp [hnone]

/-- The slot of a declared mode is found or made. -/
theorem slotOf_sound {id : ModeId} {index : ModeIndex} (h : Sound g ci underWay w origins)
    (hok : w.slotOf g id = .ok (w', index)) :
    ∃ origins', Sound g ci underWay w' origins' ∧ Grows w.slots origins w'.slots origins' ∧
      origins'[index]? = some (.declared id) ∧
      ∀ {owner place}, .copy owner place ∈ origins' → Origin.copy owner place ∈ origins := by
  unfold slotOf at hok
  split at hok
  · rename_i found hfound
    cases hok
    exact ⟨origins, h, .refl _ _, h.indexed.declared.1 hfound, fun hmem => hmem⟩
  · rename_i hnew
    obtain ⟨mode, hmode, hok⟩ := bind_eq_ok.1 hok
    rw [declaration_eq_ok] at hmode
    rw [reserve_eq] at hok
    cases hok
    have habsent : Origin.declared id ∉ origins := by
      intro hmem
      obtain ⟨i, hi⟩ := List.getElem?_of_mem hmem
      rw [h.indexed.declared.2 hi] at hnew
      cases hnew
    obtain ⟨hplaced, hgrows⟩ := h.placed.reserve [.declared id] [mode]
      (by simp [Origin.source, hmode]) (by simp) (by simpa using habsent) (by simp) (by simp)
    refine ⟨_, ⟨hplaced, ?_⟩, hgrows, ?_, ?_⟩
    · rw [← h.placed.size]
      exact h.indexed.declare _ hnew
    · simp [← h.placed.size]
    · simp

/-- The slots that an entry stands for are found or made. Beside those that can be shared there is
at most a copy for this place. -/
theorem expand_sound {this : ModeIndex} {entry : Contained} {indices : List ModeIndex}
    {mode : Mode} {s : CompiledMode} {place : Nat} (h : Sound g ci underWay w origins)
    (hp : origins[this]? = some p) (hsource : p.source g = some mode)
    (hs : shellAt w.slots this = some s) (hentry : mode.contains[place]? = some entry)
    (hfresh : ∀ k, place ≤ k → Origin.copy p k ∉ origins)
    (hok : w.expand g this entry = .ok (w', indices)) :
    ∃ origins', Sound g ci underWay w' origins' ∧ Grows w.slots origins w'.slots origins' ∧
      Located origins' indices (p.standsFor g place entry) ∧
      ∀ k, place + 1 ≤ k → Origin.copy p k ∉ origins' := by
  cases entry with
  | this =>
      cases hok
      exact ⟨origins, h, .refl _ _, located_singleton.2 hp, fun k hk => hfresh k (by omega)⟩
  | mode id =>
      obtain ⟨inner, hinner, hok⟩ := bind_eq_ok.1 hok
      rw [declaration_eq_ok] at hinner
      simp only [Origin.standsFor, hinner]
      split at hok
      · rename_i hvariants
        rw [if_pos hvariants]
        split at hok
        · rename_i found hfound
          cases hok
          obtain ⟨other, hother, hlocated⟩ := h.indexed.variants hfound
          obtain rfl := Option.some.inj (hinner.symm.trans hother)
          exact ⟨origins, h, .refl _ _, hlocated, fun k hk => hfresh k (by omega)⟩
        · rename_i hnew
          rw [reserveAll_eq] at hok
          cases hok
          have hnodup : ((List.range inner.variants.length).map (Origin.variant id)).Nodup :=
            List.Pairwise.map _ (fun a b hne heq => hne (Origin.variant.inj heq).2) List.nodup_range
          have habsent : ∀ q ∈ (List.range inner.variants.length).map (Origin.variant id),
              q ∉ origins := by
            intro q hq hmem
            obtain ⟨k, -, rfl⟩ := List.mem_map.1 hq
            have := h.indexed.variants_of_mem hmem
            rw [hnew] at this
            cases this
          obtain ⟨hplaced, hgrows⟩ := h.placed.reserve _ _ (Origin.map_source_variants hinner)
            hnodup habsent (by simp) (by simp)
          refine ⟨_, ⟨hplaced, ?_⟩, hgrows, ?_, ?_⟩
          · rw [← h.placed.size, List.length_map]
            exact h.indexed.vary _ hinner
          · rw [← h.placed.size, List.length_map]
            simpa using located_range' origins
              ((List.range inner.variants.length).map (.variant id))
          · intro k hk
            simpa using hfresh k (by omega)
      · rename_i hvariants
        rw [if_neg hvariants]
        split at hok
        · rename_i hparent
          rw [if_pos hparent]
          rw [reserve_eq] at hok
          cases hok
          obtain ⟨hplaced, hgrows⟩ := h.placed.reserve [.copy p place] [inner]
            (by simp [Origin.source, hsource, hentry, hinner]) (by simp)
            (by simpa using hfresh place (Nat.le_refl _))
            (fun hmem => by
              simp only [List.mem_singleton, Origin.copy.injEq] at hmem
              obtain ⟨rfl, -⟩ := hmem
              exact ⟨this, s, hp, hs⟩)
            (fun hmem => by
              simp only [List.mem_singleton, Origin.copy.injEq] at hmem
              obtain ⟨rfl, rfl⟩ := hmem
              exact Origin.standsFor_subset_contents hsource hentry
                (by simp [Origin.standsFor, hinner, hvariants, hparent]))
          refine ⟨_, ⟨hplaced, h.indexed.copy _ _ _⟩, hgrows, ?_, ?_⟩
          · simp [← h.placed.size, located_singleton]
          · intro k hk
            simpa [show k ≠ place by omega] using hfresh k (by omega)
        · rename_i hparent
          rw [if_neg hparent]
          obtain ⟨⟨w₁, index⟩, hslot, hok⟩ := bind_eq_ok.1 hok
          cases hok
          obtain ⟨origins', hsound, hgrows, hindex, hcopies⟩ := slotOf_sound h hslot
          exact ⟨origins', hsound, hgrows, located_singleton.2 hindex,
            fun k hk hmem => hfresh k (by omega) (hcopies hmem)⟩

/-- The slots of all entries are found or made, one entry after another. -/
theorem expandAll_sound {this : ModeIndex} {mode : Mode} {s : CompiledMode}
    (hsource : p.source g = some mode) :
    ∀ {entries : List Contained} {place : Nat} {w w' : Workbench} {origins : List Origin}
      {indices : List ModeIndex}, Sound g ci underWay w origins → origins[this]? = some p →
      shellAt w.slots this = some s → mode.contains.drop place = entries →
      (∀ k, place ≤ k → Origin.copy p k ∉ origins) →
      w.expandAll g this entries = .ok (w', indices) →
      ∃ origins', Sound g ci underWay w' origins' ∧ Grows w.slots origins w'.slots origins' ∧
        Located origins' indices (p.standForAll g place entries) := by
  intro entries
  induction entries with
  | nil =>
      intro place w w' origins indices h hp hs hentries hfresh hok
      cases hok
      exact ⟨origins, h, .refl _ _, .nil⟩
  | cons entry rest ih =>
      intro place w w' origins indices h hp hs hentries hfresh hok
      obtain ⟨⟨w₁, first⟩, hfirst, hok⟩ := bind_eq_ok.1 hok
      obtain ⟨⟨w₂, others⟩, hothers, hok⟩ := bind_eq_ok.1 hok
      cases hok
      have hentry : mode.contains[place]? = some entry := by
        rw [← List.head?_drop, hentries, List.head?_cons]
      have hrest : mode.contains.drop (place + 1) = rest := by
        rw [← List.tail_drop, hentries, List.tail_cons]
      obtain ⟨origins₁, h₁, hgrows₁, hlocated₁, hfresh₁⟩ :=
        expand_sound h hp hsource hs hentry hfresh hfirst
      obtain ⟨origins₂, h₂, hgrows₂, hlocated₂⟩ := ih h₁ (getElem?_of_isPrefix hgrows₁.origins hp)
        (hgrows₁.shells hs) hrest hfresh₁ hothers
      exact ⟨origins₂, h₂, hgrows₁.trans hgrows₂,
        (hlocated₁.mono hgrows₂.origins).append hlocated₂⟩

/-! ### The whole traversal -/

/-- What a reserved slot is compiled against has begun, so it is another slot. -/
theorem against_of_inheritedEnd {index : ModeIndex} {mode : Mode} {parent : Option ModeIndex}
    {inherited : Option String} (h : Sound g ci underWay w origins)
    (hreserved : w.slots[index]? = some (.reserved mode)) (hp : origins[index]? = some p)
    (hreached : ReachedFrom g origins p parent) (hok : w.inheritedEnd parent = .ok inherited) :
    Against g w.slots origins p inherited := by
  cases parent with
  | none =>
      cases hok
      exact .top hreached
  | some parent =>
      obtain ⟨c, hc, hok⟩ := bind_eq_ok.1 hok
      cases hok
      obtain ⟨q, hq, hencloses⟩ := hreached
      rw [compiledAt_eq_ok] at hc
      have hne : q ≠ p := by
        rintro rfl
        rw [index_unique h.placed.nodup hq hp, hreserved] at hc
        cases hc
      have hs : shellAt w.slots parent = some c.shell := shellAt_eq_some.2 ⟨c, hc, rfl⟩
      have hinside : Against g w.slots origins p (some c.shell.terminatorEnd) :=
        .inside hq hencloses hne hs
      exact hinside

/-- If compiling one slot keeps the invariant, so does compiling several. -/
theorem foldlM_sound (parent : ModeIndex)
    {step : Workbench → ModeIndex → Except CompileError Workbench}
    (hstep : ∀ {index : ModeIndex} {w w' : Workbench} {origins : List Origin} {p : Origin},
      Sound g ci underWay w origins → origins[index]? = some p →
      ReachedFrom g origins p (some parent) → step w index = .ok w' →
      ∃ origins', Sound g ci underWay w' origins' ∧ Grows w.slots origins w'.slots origins')
    {indices : List ModeIndex} {ps : List Origin} (h : Sound g ci underWay w origins)
    (hlocated : Located origins indices ps)
    (hreached : ∀ q ∈ ps, ReachedFrom g origins q (some parent))
    (hok : indices.foldlM step w = .ok w') :
    ∃ origins', Sound g ci underWay w' origins' ∧ Grows w.slots origins w'.slots origins' := by
  induction indices generalizing w origins ps with
  | nil =>
      cases hok
      exact ⟨origins, h, .refl _ _⟩
  | cons index indices ih =>
      rw [List.foldlM_cons] at hok
      obtain ⟨w₁, hfirst, hok⟩ := bind_eq_ok.1 hok
      obtain ⟨q, qs, rfl, hq, hqs⟩ := located_cons.1 hlocated
      obtain ⟨origins₁, h₁, hgrows₁⟩ := hstep h hq (hreached q (by simp)) hfirst
      obtain ⟨origins₂, h₂, hgrows₂⟩ := ih h₁ (hqs.mono hgrows₁.origins)
        (fun r hr => (hreached r (by simp [hr])).mono hgrows₁.origins) hok
      exact ⟨origins₂, h₂, hgrows₁.trans hgrows₂⟩

/-- The mode that follows another, if one does, gets a slot and is compiled against the parent. -/
inductive Following (g : Grammar) (ci : Bool) (fuel : Nat) (parent : Option ModeIndex)
    (w : Workbench) : Option ModeId → Option ModeIndex → Workbench → Prop
  | none : Following g ci fuel parent w none none w
  | some {id : ModeId} {index : ModeIndex} {v w' : Workbench} :
      w.slotOf g id = .ok (v, index) → ensure g ci fuel index parent v = .ok w' →
      Following g ci fuel parent w (some id) (some index) w'

/-- What compiling a reserved slot goes through: its shell, the slots of the modes inside, those
modes, the mode that follows, and last the terminators. -/
theorem ensure_succ_eq_ok {fuel : Nat} {index : ModeIndex} {parent : Option ModeIndex} {mode : Mode}
    (hreserved : w.slots[index]? = some (.reserved mode))
    (hok : ensure g ci (fuel + 1) index parent w = .ok w') :
    ∃ inherited shell w₁ contains w₂ w₃ starts children self terminators,
      w.inheritedEnd parent = .ok inherited ∧
      mode.compileTraits ci inherited = .ok shell ∧
      (w.fill index shell).expandAll g index mode.contains = .ok (w₁, contains) ∧
      contains.foldlM (fun w child => ensure g ci fuel child (some index) w) w₁ = .ok w₂ ∧
      Following g ci fuel parent w₂ mode.starts starts w₃ ∧
      contains.mapM w₃.compiledAt = .ok children ∧
      w₃.compiledAt index = .ok self ∧
      self.compileTerminators ci children = .ok terminators ∧
      w' = w₃.fill index
        { self with contains := contains, starts := starts, terminators := terminators } := by
  unfold ensure at hok
  rw [hreserved] at hok
  obtain ⟨inherited, hinherited, hok⟩ := bind_eq_ok.1 hok
  obtain ⟨shell, hshell, hok⟩ := bind_eq_ok.1 hok
  obtain ⟨⟨w₁, contains⟩, hexpand, hok⟩ := bind_eq_ok.1 hok
  obtain ⟨w₂, hinside, hok⟩ := bind_eq_ok.1 hok
  cases hstarts : mode.starts with
  | none =>
      simp only [hstarts] at hok
      obtain ⟨⟨w₃, starts⟩, hfollowing, hok⟩ := bind_eq_ok.1 hok
      obtain ⟨children, hchildren, hok⟩ := bind_eq_ok.1 hok
      obtain ⟨self, hself, hok⟩ := bind_eq_ok.1 hok
      obtain ⟨terminators, hterminators, hok⟩ := bind_eq_ok.1 hok
      cases hfollowing
      exact ⟨inherited, shell, w₁, contains, w₂, w₂, none, children, self, terminators, hinherited,
        hshell, hexpand, hinside, .none, hchildren, hself, hterminators,
        (pure_eq_ok.1 hok).symm⟩
  | some id =>
      simp only [hstarts] at hok
      obtain ⟨⟨w', following⟩, hslot, hok⟩ := bind_eq_ok.1 hok
      obtain ⟨w₃, hensure, hok⟩ := bind_eq_ok.1 hok
      obtain ⟨⟨w₄, starts⟩, hfollowing, hok⟩ := bind_eq_ok.1 hok
      obtain ⟨children, hchildren, hok⟩ := bind_eq_ok.1 hok
      obtain ⟨self, hself, hok⟩ := bind_eq_ok.1 hok
      obtain ⟨terminators, hterminators, hok⟩ := bind_eq_ok.1 hok
      cases hfollowing
      exact ⟨inherited, shell, w₁, contains, w₂, w₃, some following, children, self, terminators,
        hinherited, hshell, hexpand, hinside, .some hslot hensure, hchildren, hself, hterminators,
        (pure_eq_ok.1 hok).symm⟩

/-- **Before the modes inside.** The slot gets its shell and is under way. -/
theorem begin_sound {index : ModeIndex} {parent : Option ModeIndex} {mode : Mode}
    {inherited : Option String} {shell : CompiledMode} (h : Sound g ci underWay w origins)
    (hreserved : w.slots[index]? = some (.reserved mode)) (hp : origins[index]? = some p)
    (hsource : p.source g = some mode) (hreached : ReachedFrom g origins p parent)
    (hinherited : w.inheritedEnd parent = .ok inherited)
    (hshell : mode.compileTraits ci inherited = .ok shell) :
    Sound g ci (index :: underWay) (w.fill index shell) origins ∧
      Grows w.slots origins (w.fill index shell).slots origins ∧
      shellAt (w.fill index shell).slots index = some shell.shell := by
  have hnone : ∀ s, shellAt w.slots index = some s → s = shell.shell := by
    intro s hs
    obtain ⟨c, hc, -⟩ := shellAt_eq_some.1 hs
    rw [hreserved] at hc
    cases hc
  have hgrows : Grows w.slots origins (w.fill index shell).slots origins :=
    Placed.grows_fill hnone
  have hs : shellAt (w.fill index shell).slots index = some shell.shell := by
    have hlt := (Array.getElem?_eq_some_iff.1 hreserved).1
    exact shellAt_eq_some.2 ⟨shell, Array.getElem?_setIfInBounds_self_of_lt hlt, rfl⟩
  have hstarted := h.placed.started_of_compileTraits hp hsource
    (against_of_inheritedEnd h hreserved hp hreached hinherited) hshell hgrows hs
  refine ⟨⟨?_, ?_⟩, hgrows, hs⟩
  · refine h.placed.fill hp hnone hstarted (by simp) ?_
    intro i hne hi
    simp only [List.mem_cons, not_or] at hi
    exact hi.2
  · exact ⟨h.indexed.declared, h.indexed.variants, h.indexed.variants_of_mem⟩

/-- **After the modes inside.** With them and the terminators in place the slot is complete. -/
theorem close_sound {index : ModeIndex} {contains : List ModeIndex} {starts : Option ModeIndex}
    {children : List CompiledMode} {self : CompiledMode} {terminators : Option Pattern}
    (h : Sound g ci (index :: underWay) w origins) (hp : origins[index]? = some p)
    (hcontains : Located origins contains (p.contents g))
    (hstarts : Located origins starts.toList (p.follower g).toList)
    (hchildren : contains.mapM w.compiledAt = .ok children)
    (hself : w.compiledAt index = .ok self)
    (hterminators : self.compileTerminators ci children = .ok terminators) :
    Sound g ci underWay
        (w.fill index
          { self with contains := contains, starts := starts, terminators := terminators })
        origins ∧
      Grows w.slots origins
        (w.fill index
          { self with contains := contains, starts := starts, terminators := terminators }).slots
        origins := by
  rw [compiledAt_eq_ok] at hself
  have hkeeps : ∀ s, shellAt w.slots index = some s → s = self.shell := by
    intro s hs
    rw [shellAt_eq_some.2 ⟨self, hself, rfl⟩] at hs
    exact (Option.some.inj hs).symm
  have hshells : contains.map (shellAt w.slots) =
      (children.map CompiledMode.shell).map some := by
    have hforall := mapM_eq_ok.1 hchildren
    clear hchildren hcontains hterminators
    induction hforall with
    | nil => rfl
    | cons hc _ ih =>
        rw [List.map_cons, List.map_cons, List.map_cons, ih,
          shellAt_eq_some.2 ⟨_, compiledAt_eq_ok.1 hc, rfl⟩]
  obtain ⟨q, hq, hstarted⟩ := h.placed.started hself
  obtain rfl := Option.some.inj (hp.symm.trans hq)
  have hgrows : Grows w.slots origins
      (w.fill index
        { self with contains := contains, starts := starts, terminators := terminators }).slots
      origins := Placed.grows_fill hkeeps
  have hstarted' := hstarted.mono hgrows
  refine ⟨⟨?_, ?_⟩, hgrows⟩
  · refine h.placed.fill hp hkeeps ⟨hstarted'.traits, hstarted'.ends⟩ (fun _ => ?_) ?_
    · refine ⟨hcontains, hstarts, children.map CompiledMode.shell, hshells, ?_⟩
      rw [CompiledMode.compileTerminators_map_shell]
      exact hterminators
    · intro i hne hi
      simp [hne, hi]
  · exact ⟨h.indexed.declared, h.indexed.variants, h.indexed.variants_of_mem⟩

/-- If compiling one slot keeps the invariant, so does compiling the mode that follows. -/
theorem follow_sound {fuel : Nat} {parent starts : Option ModeIndex} {mode : Mode}
    (hstep : ∀ {underWay : List ModeIndex} {index : ModeIndex} {parent : Option ModeIndex}
      {w w' : Workbench} {origins : List Origin} {p : Origin},
      Sound g ci underWay w origins → origins[index]? = some p →
      ReachedFrom g origins p parent → ensure g ci fuel index parent w = .ok w' →
      ∃ origins', Sound g ci underWay w' origins' ∧ Grows w.slots origins w'.slots origins')
    (h : Sound g ci underWay w origins) (hsource : p.source g = some mode)
    (hreached : ReachedFrom g origins p parent)
    (hfollowing : Following g ci fuel parent w mode.starts starts w') :
    ∃ origins', Sound g ci underWay w' origins' ∧ Grows w.slots origins w'.slots origins' ∧
      Located origins' starts.toList (p.follower g).toList := by
  rw [Origin.follower_eq hsource]
  have hfollower := Origin.follower_eq hsource
  generalize mode.starts = declared at hfollowing hfollower ⊢
  cases hfollowing with
  | none => exact ⟨origins, h, .refl _ _, .nil⟩
  | some hslot hensure =>
      obtain ⟨origins₁, h₁, hgrows₁, hindex, -⟩ := slotOf_sound h hslot
      obtain ⟨origins₂, h₂, hgrows₂⟩ := hstep h₁ hindex
        ((hreached.mono hgrows₁.origins).follows hfollower) hensure
      exact ⟨origins₂, h₂, hgrows₁.trans hgrows₂,
        located_singleton.2 (getElem?_of_isPrefix hgrows₂.origins hindex)⟩

/-- **A reserved slot.** If compiling a slot with less fuel keeps the invariant, so does compiling
this one, and the slot has the shell of its mode against the parent. While the modes inside it are
compiled the slot is under way, and it is complete when they are. -/
theorem ensure_reserved_sound {fuel : Nat} {index : ModeIndex} {parent : Option ModeIndex}
    {mode : Mode}
    (hstep : ∀ {underWay : List ModeIndex} {index : ModeIndex} {parent : Option ModeIndex}
      {w w' : Workbench} {origins : List Origin} {p : Origin},
      Sound g ci underWay w origins → origins[index]? = some p →
      ReachedFrom g origins p parent → ensure g ci fuel index parent w = .ok w' →
      ∃ origins', Sound g ci underWay w' origins' ∧ Grows w.slots origins w'.slots origins')
    (h : Sound g ci underWay w origins) (hp : origins[index]? = some p)
    (hreached : ReachedFrom g origins p parent)
    (hreserved : w.slots[index]? = some (.reserved mode))
    (hok : ensure g ci (fuel + 1) index parent w = .ok w') :
    ∃ origins' inherited shell, Sound g ci underWay w' origins' ∧
      Grows w.slots origins w'.slots origins' ∧ w.inheritedEnd parent = .ok inherited ∧
      mode.compileTraits ci inherited = .ok shell ∧
      shellAt w'.slots index = some shell.shell := by
  obtain ⟨inherited, shell, w₁, contains, w₂, w₃, starts, children, self, terminators,
    hinherited, hshell, hexpand, hinside, hfollowing, hchildren, hself, hterminators, rfl⟩ :=
    ensure_succ_eq_ok hreserved hok
  obtain ⟨q, hq, hsource⟩ := h.placed.reserved hreserved
  obtain rfl := Option.some.inj (hp.symm.trans hq)
  -- From here until it is closed the slot is under way, and its shell stays as it is.
  obtain ⟨h₀, hgrows₀, hs₀⟩ := begin_sound h hreserved hp hsource hreached hinherited hshell
  obtain ⟨origins₁, h₁, hgrows₁, hcontains⟩ :=
    expandAll_sound hsource h₀ hp hs₀ List.drop_zero
      (fun k _ => h.placed.copy_notMem hreserved hp k) hexpand
  rw [← Origin.contents_eq hsource] at hcontains
  obtain ⟨origins₂, h₂, hgrows₂⟩ := foldlM_sound index hstep h₁ hcontains
    (fun q hq => ⟨p, getElem?_of_isPrefix hgrows₁.origins hp, .contains hq⟩) hinside
  have hgrows₁₂ := hgrows₁.trans hgrows₂
  have hgrows₀₂ := hgrows₀.trans hgrows₁₂
  obtain ⟨origins₃, h₃, hgrows₃, hstarts⟩ :=
    follow_sound hstep h₂ hsource (hreached.mono hgrows₀₂.origins) hfollowing
  obtain ⟨hclosed, hgrows⟩ := close_sound h₃
    (getElem?_of_isPrefix (hgrows₀₂.trans hgrows₃).origins hp)
    (hcontains.mono (hgrows₂.trans hgrows₃).origins) hstarts hchildren hself hterminators
  exact ⟨origins₃, inherited, shell, hclosed, (hgrows₀₂.trans hgrows₃).trans hgrows, hinherited,
    hshell, ((hgrows₁₂.trans hgrows₃).trans hgrows).shells hs₀⟩

/-- **The recursion.** Compiling a slot keeps the invariant. -/
theorem ensure_sound (fuel : Nat) :
    ∀ {underWay : List ModeIndex} {index : ModeIndex} {parent : Option ModeIndex}
      {w w' : Workbench} {origins : List Origin} {p : Origin},
      Sound g ci underWay w origins → origins[index]? = some p →
      ReachedFrom g origins p parent → ensure g ci fuel index parent w = .ok w' →
      ∃ origins', Sound g ci underWay w' origins' ∧ Grows w.slots origins w'.slots origins' := by
  induction fuel with
  | zero =>
      intro underWay index parent w w' origins p h hp hreached hok
      unfold ensure at hok
      split at hok
      · cases hok
      · cases hok
        exact ⟨origins, h, .refl _ _⟩
  | succ fuel ih =>
      intro underWay index parent w w' origins p h hp hreached hok
      by_cases hreserved : ∃ mode, w.slots[index]? = some (.reserved mode)
      · obtain ⟨mode, hreserved⟩ := hreserved
        obtain ⟨origins', -, -, h', hgrows, -⟩ :=
          ensure_reserved_sound ih h hp hreached hreserved hok
        exact ⟨origins', h', hgrows⟩
      · -- A slot that is compiled or under way is left alone.
        unfold ensure at hok
        split at hok
        · exact absurd ⟨_, ‹_›⟩ hreserved
        · cases hok
          exact ⟨origins, h, .refl _ _⟩

/-- The work ends when every slot is compiled. -/
theorem finish_eq_ok {modes : Array CompiledMode} (hok : w.finish = .ok modes) :
    w.slots = modes.map Slot.compiled := by
  have hlist := congrArg (Except.map Array.toList) hok
  change Array.toList <$> (Array.range w.slots.size).mapM w.compiledAt = .ok modes.toList at hlist
  rw [Array.toList_mapM, Array.toList_range, mapM_eq_ok] at hlist
  have hsize : w.slots.size = modes.size := by simpa using hlist.length_eq
  apply Array.ext_getElem?
  intro i
  by_cases hi : i < modes.size
  · have hmode := hlist.get (by simpa [hsize] using hi) hi
    rw [List.get_eq_getElem, List.getElem_range, compiledAt_eq_ok] at hmode
    rw [hmode, Array.getElem?_map, Array.getElem?_eq_getElem hi]
    rfl
  · rw [Array.getElem?_eq_none (by omega), Array.getElem?_eq_none (by simpa using hi)]

end Workbench

/-- **Every compiled grammar is a part of the unfolding.** Its modes have origins, the root that of
the root's declaration, and all of them are complete. The root is compiled against nothing. -/
theorem Grammar.compile_sound {compiled : CompiledGrammar} (hok : g.compile ci = .ok compiled) :
    compiled.caseInsensitive = ci ∧
      ∃ origins, Placed g ci [] (compiled.modes.map Slot.compiled) origins ∧
        origins[CompiledGrammar.rootIndex]? = some (.declared rootId) ∧
        ∃ mode shell, Mode.compileTraits mode ci none = .ok shell ∧
          shellAt (compiled.modes.map Slot.compiled) CompiledGrammar.rootIndex =
            some shell.shell := by
  obtain ⟨⟨w₀, root⟩, hroot, hok⟩ := bind_eq_ok.1 hok
  obtain ⟨w, hensure, hok⟩ := bind_eq_ok.1 hok
  obtain ⟨modes, hmodes, hok⟩ := bind_eq_ok.1 hok
  obtain rfl := pure_eq_ok.1 hok
  obtain ⟨origins₀, h₀, -, hindex, -⟩ := Workbench.slotOf_sound Sound.empty hroot
  have hreached : ReachedFrom g origins₀ (.declared rootId) none := Origin.Encloses.root
  obtain ⟨mode, -, hroot⟩ := bind_eq_ok.1 hroot
  cases hroot
  obtain ⟨origins, inherited, shell, h, hgrows, hinherited, hshell, hs⟩ :=
    Workbench.ensure_reserved_sound (Workbench.ensure_sound _) h₀ hindex hreached rfl hensure
  cases hinherited
  rw [← Workbench.finish_eq_ok hmodes]
  exact ⟨rfl, origins, h.placed, getElem?_of_isPrefix hgrows.origins hindex, mode, shell, hshell,
    hs⟩

theorem Grammar.placed_of_compile {compiled : CompiledGrammar} (hok : g.compile ci = .ok compiled) :
    compiled.caseInsensitive = ci ∧
      ∃ origins, Placed g ci [] (compiled.modes.map Slot.compiled) origins ∧
        origins[CompiledGrammar.rootIndex]? = some (.declared rootId) := by
  obtain ⟨hci, origins, h, hroot, -⟩ := Grammar.compile_sound hok
  exact ⟨hci, origins, h, hroot⟩

/-- The root has neither begin nor end. -/
theorem Grammar.root_of_compile {compiled : CompiledGrammar} (hok : g.compile ci = .ok compiled) :
    (compiled.mode CompiledGrammar.rootIndex).begins = none ∧
      (compiled.mode CompiledGrammar.rootIndex).ends = none ∧
      (compiled.mode CompiledGrammar.rootIndex).terminatorEnd = "" := by
  obtain ⟨-, -, -, -, mode, shell, hshell, hs⟩ := Grammar.compile_sound hok
  obtain ⟨-, -, hbegins, hends, hterminatorEnd, -⟩ := Mode.compileTraits_eq_ok hshell
  obtain ⟨c, hc, heq⟩ := shellAt_eq_some.1 hs
  have hmode : compiled.mode CompiledGrammar.rootIndex = c := by
    rw [Array.getElem?_map, Option.map_eq_some_iff] at hc
    obtain ⟨d, hd, hdc⟩ := hc
    cases hdc
    rw [CompiledGrammar.mode, hd, Option.getD_some]
  rw [hmode]
  change c.shell.begins = none ∧ c.shell.ends = none ∧ c.shell.terminatorEnd = ""
  rw [heq]
  exact ⟨Option.map_eq_none_iff.1 hbegins, Option.map_eq_none_iff.1 hends, hterminatorEnd⟩

end Traversal

end LexicalModes
