import LexicalModes.Proofs.Dangling
import LexicalModes.Proofs.Workbench

/-!
The calls of the recursion that compiles a grammar. A call compiles one slot against one parent, and
leads to further calls, for the modes inside and for the mode that follows, as far as they find
their slots open (`Call.Leads`). Every call keeps the invariant and is made against a parent that
has begun (`Call.At`), and what it has led to leaves no open slot behind. So nothing is read from a
slot that was not filled, and a call fails through the grammar, or at the limit, which it meets at
the end of a chain of as many calls (`Call.At.error_of_run`).
-/

namespace LexicalModes

variable {g : Grammar} {ci : Bool}

/-! ### Open slots -/

namespace Workbench

variable {w w' : Workbench} {index i : ModeIndex}

/-- The slot is kept for a mode that is still to be compiled. -/
def Open (w : Workbench) (index : ModeIndex) : Prop :=
  ∃ mode, w.slots[index]? = some (.reserved mode)

theorem not_open_of_shellAt {s : CompiledMode} (hs : shellAt w.slots index = some s) :
    ¬w.Open index := by
  rintro ⟨mode, hmode⟩
  obtain ⟨c, hc, -⟩ := shellAt_eq_some.1 hs
  rw [hmode] at hc
  cases hc

/-- A slot that is not open has begun. -/
theorem exists_shellAt (hlt : index < w.slots.size) (hopen : ¬w.Open index) :
    ∃ s, shellAt w.slots index = some s := by
  have hslot : w.slots[index]? = some w.slots[index] := Array.getElem?_eq_getElem hlt
  cases hcase : w.slots[index] with
  | reserved mode => exact absurd ⟨mode, by rw [hslot, hcase]⟩ hopen
  | compiled c => exact ⟨c.shell, shellAt_eq_some.2 ⟨c, by rw [hslot, hcase], rfl⟩⟩

theorem compiledAt_ne_error {s : CompiledMode} (hs : shellAt w.slots index = some s)
    (e : CompileError) : w.compiledAt index ≠ .error e := by
  obtain ⟨c, hc, -⟩ := shellAt_eq_some.1 hs
  rw [compiledAt_eq_ok.2 hc]
  exact nofun

theorem Open.of_fill {c : CompiledMode} (h : (w.fill index c).Open i) : w.Open i ∧ i ≠ index := by
  obtain ⟨mode, hmode⟩ := h
  rw [fill] at hmode
  dsimp only at hmode
  rw [Array.getElem?_setIfInBounds] at hmode
  split at hmode
  · split at hmode <;> cases hmode
  · exact ⟨⟨mode, hmode⟩, Ne.symm ‹_›⟩

theorem Open.of_append {modes : List Mode}
    (h : Open { w with slots := w.slots ++ (modes.map Slot.reserved).toArray } i) :
    w.Open i ∨ i ∈ List.range' w.slots.size modes.length := by
  obtain ⟨mode, hmode⟩ := h
  dsimp only at hmode
  rw [Array.getElem?_append] at hmode
  split at hmode
  · exact .inl ⟨mode, hmode⟩
  · obtain ⟨hlt, -⟩ := Array.getElem?_eq_some_iff.1 hmode
    have hsize : (modes.map Slot.reserved).toArray.size = modes.length := by simp
    exact .inr (List.mem_range'_1.2 (by omega))

/-- Looking a mode up opens no other slot. -/
theorem Open.of_slotOf {id : ModeId} (hok : w.slotOf g id = .ok (w', index)) (h : w'.Open i) :
    w.Open i ∨ i = index := by
  unfold slotOf at hok
  split at hok
  · cases hok
    exact .inl h
  · obtain ⟨mode, -, hok⟩ := bind_eq_ok.1 hok
    rw [reserve_eq] at hok
    cases hok
    simpa using Open.of_append h

theorem Open.of_expand {this : ModeIndex} {entry : Contained} {indices : List ModeIndex}
    (hok : w.expand g this entry = .ok (w', indices)) (h : w'.Open i) :
    w.Open i ∨ i ∈ indices := by
  cases entry with
  | this =>
      cases hok
      exact .inl h
  | mode id =>
      obtain ⟨inner, -, hok⟩ := bind_eq_ok.1 hok
      split at hok
      · split at hok
        · cases hok
          exact .inl h
        · rw [reserveAll_eq] at hok
          cases hok
          exact Open.of_append h
      · split at hok
        · rw [reserve_eq] at hok
          cases hok
          simpa using Open.of_append h
        · obtain ⟨⟨w₁, index⟩, hslot, hok⟩ := bind_eq_ok.1 hok
          cases hok
          rw [List.mem_singleton]
          exact h.of_slotOf hslot

theorem Open.of_expandAll {this : ModeIndex} {entries : List Contained} {indices : List ModeIndex}
    (hok : w.expandAll g this entries = .ok (w', indices)) (h : w'.Open i) :
    w.Open i ∨ i ∈ indices := by
  induction entries generalizing w indices with
  | nil =>
      cases hok
      exact .inl h
  | cons entry rest ih =>
      obtain ⟨⟨w₁, first⟩, hfirst, hok⟩ := bind_eq_ok.1 hok
      obtain ⟨⟨w₂, others⟩, hothers, hok⟩ := bind_eq_ok.1 hok
      cases hok
      rw [List.mem_append, ← or_assoc]
      exact (ih hothers).imp_left fun hopen => hopen.of_expand hfirst

/-- Compile the modes of several slots against one parent. -/
def ensureAll (g : Grammar) (ci : Bool) (fuel : Nat) (parent : ModeIndex) (w : Workbench)
    (indices : List ModeIndex) : Except CompileError Workbench :=
  indices.foldlM (fun w child => ensure g ci fuel child (some parent) w) w

theorem Open.of_foldlM {step : Workbench → ModeIndex → Except CompileError Workbench}
    (hstep : ∀ {index : ModeIndex} {w w' : Workbench}, step w index = .ok w' → w'.Open i →
      w.Open i ∧ i ≠ index)
    {indices : List ModeIndex} (hok : indices.foldlM step w = .ok w') (h : w'.Open i) :
    w.Open i ∧ i ∉ indices := by
  induction indices generalizing w with
  | nil =>
      cases hok
      exact ⟨h, List.not_mem_nil⟩
  | cons index rest ih =>
      rw [List.foldlM_cons] at hok
      obtain ⟨w₁, hfirst, hok⟩ := bind_eq_ok.1 hok
      obtain ⟨hopen, hrest⟩ := ih hok
      obtain ⟨hopen, hne⟩ := hstep hfirst hopen
      exact ⟨hopen, by simp [hne, hrest]⟩

theorem Open.of_following {fuel : Nat} {parent starts : Option ModeIndex} {declared : Option ModeId}
    (hstep : ∀ {index : ModeIndex} {parent : Option ModeIndex} {w w' : Workbench},
      ensure g ci fuel index parent w = .ok w' → w'.Open i → w.Open i ∧ i ≠ index)
    (hfollowing : Following g ci fuel parent w declared starts w') (h : w'.Open i) : w.Open i := by
  cases hfollowing with
  | none => exact h
  | some hslot hensure =>
      obtain ⟨hopen, hne⟩ := hstep hensure h
      exact (hopen.of_slotOf hslot).resolve_right hne

/-- **No hole.** Compiling a slot fills it, and leaves no slot open that was not open before. -/
theorem Open.of_ensure (fuel : Nat) {parent : Option ModeIndex}
    (hok : ensure g ci fuel index parent w = .ok w') (h : w'.Open i) : w.Open i ∧ i ≠ index := by
  induction fuel generalizing index parent w w' with
  | zero =>
      unfold ensure at hok
      split at hok
      · cases hok
      · rename_i hother
        cases hok
        refine ⟨h, ?_⟩
        rintro rfl
        obtain ⟨mode, hmode⟩ := h
        exact hother mode hmode
  | succ fuel ih =>
      by_cases hopen : w.Open index
      · obtain ⟨mode, hreserved⟩ := hopen
        obtain ⟨inherited, shell, w₁, contains, w₂, w₃, starts, children, self, terminators,
          -, -, hexpand, hinside, hfollowing, -, -, -, rfl⟩ := ensure_succ_eq_ok hreserved hok
        -- Back from the end of the call: what it found slots for was filled in the meantime.
        have h₂ := h.of_fill.1.of_following ih hfollowing
        obtain ⟨h₁, hnot⟩ := h₂.of_foldlM ih hinside
        exact ((h₁.of_expandAll hexpand).resolve_right hnot).of_fill
      · unfold ensure at hok
        split at hok
        · exact absurd ⟨_, ‹_›⟩ hopen
        · cases hok
          exact ⟨h, fun heq => hopen (heq ▸ h)⟩

end Workbench

/-! ### Calls -/

/-- A call of the recursion: a slot, the parent it is compiled against, and the workbench that the
call finds. -/
structure Call where
  index : ModeIndex
  parent : Option ModeIndex
  workbench : Workbench

/-- The grammar is at fault, and not the compiling. -/
def CompileError.OfGrammar : CompileError → Prop
  | .pattern _ _ | .keywordWeight _ | .danglingMode _ => True
  | .unresolved _ | .endless => False

theorem CompileError.OfTraits.ofGrammar {e : CompileError} (h : e.OfTraits) : e.OfGrammar := by
  cases e <;> trivial

namespace Call

section

variable (g : Grammar) (ci : Bool)

/-- What the call comes to. -/
def run (fuel : Nat) (c : Call) : Except CompileError Workbench :=
  Workbench.ensure g ci fuel c.index c.parent c.workbench

/-- The slot of the call holds the mode, gets its shell, and slots are found for the modes
inside. -/
structure Opens (c : Call) (mode : Mode) (contains : List ModeIndex) (w : Workbench) : Prop where
  reserved : c.workbench.slots[c.index]? = some (.reserved mode)
  expanded : ∃ inherited shell, c.workbench.inheritedEnd c.parent = .ok inherited ∧
    mode.compileTraits ci inherited = .ok shell ∧
    (c.workbench.fill c.index shell).expandAll g c.index mode.contains = .ok (w, contains)

/-- The calls that a call makes and that find their slot open: one for each mode inside, when those
before it are compiled, and one for the mode that follows, when all of them are. That one has the
same parent. -/
inductive Leads (c : Call) : Call → Prop
  | inside {mode : Mode} {before after : List ModeIndex} {child : ModeIndex} {w w' : Workbench}
      {fuel : Nat} : c.Opens g ci mode (before ++ child :: after) w →
      w.ensureAll g ci fuel c.index before = .ok w' → w'.Open child →
      Leads c ⟨child, some c.index, w'⟩
  | following {mode : Mode} {contains : List ModeIndex} {w w₁ w₂ : Workbench} {fuel : Nat}
      {id : ModeId} {index : ModeIndex} : c.Opens g ci mode contains w →
      w.ensureAll g ci fuel c.index contains = .ok w₁ → mode.starts = some id →
      w₁.slotOf g id = .ok (w₂, index) → w₂.Open index → Leads c ⟨index, c.parent, w₂⟩

/-- A chain of calls, each of which leads to the next, of the given length. -/
inductive Chain : Nat → Call → Call → Prop
  | refl (c : Call) : Chain 0 c c
  | step {n : Nat} {c next last : Call} : c.Leads g ci next → Chain n next last →
      Chain (n + 1) c last

/-- How a call fails on an open slot: through the grammar, in a call that it leads to, or because a
slot that it reads was not filled, that of the parent or, at the end, its own or that of a mode
inside. -/
inductive Fails (fuel : Nat) (c : Call) (e : CompileError) : Prop
  | grammar : e.OfGrammar → Fails fuel c e
  | call {next : Call} : c.Leads g ci next → next.run g ci fuel = .error e → Fails fuel c e
  | parent {parent : ModeIndex} : c.parent = some parent →
      c.workbench.compiledAt parent = .error e → Fails fuel c e
  | last {mode : Mode} {contains : List ModeIndex} {w w₁ w₂ : Workbench}
      {starts : Option ModeIndex} {index : ModeIndex} : c.Opens g ci mode contains w →
      w.ensureAll g ci fuel c.index contains = .ok w₁ →
      Workbench.Following g ci fuel c.parent w₁ mode.starts starts w₂ →
      index ∈ c.index :: contains → w₂.compiledAt index = .error e → Fails fuel c e

end

variable {c : Call} {fuel : Nat} {e : CompileError}

/-- Only on an open slot can a call fail. -/
theorem open_of_run_error (herror : c.run g ci fuel = .error e) :
    c.workbench.Open c.index := by
  by_contra hopen
  rw [run] at herror
  unfold Workbench.ensure at herror
  split at herror
  · exact hopen ⟨_, ‹_›⟩
  · cases herror

end Call

namespace Workbench

variable {w : Workbench} {e : CompileError}

theorem declaration_eq_error {id : ModeId} (herror : declaration g id = .error e) :
    e = .danglingMode id := by
  unfold declaration at herror
  split at herror
  · cases herror
  · cases herror
    rfl

theorem ofGrammar_slotOf {id : ModeId} (herror : w.slotOf g id = .error e) : e.OfGrammar := by
  unfold slotOf at herror
  split at herror
  · cases herror
  · rcases bind_eq_error.1 herror with hdangling | ⟨mode, -, herror⟩
    · rw [declaration_eq_error hdangling]
      trivial
    · cases herror

theorem ofGrammar_expand {this : ModeIndex} {entry : Contained}
    (herror : w.expand g this entry = .error e) : e.OfGrammar := by
  cases entry with
  | this => cases herror
  | mode id =>
      rcases bind_eq_error.1 herror with hdangling | ⟨mode, -, herror⟩
      · rw [declaration_eq_error hdangling]
        trivial
      · split at herror
        · split at herror <;> cases herror
        · split at herror
          · cases herror
          · rcases bind_eq_error.1 herror with hslot | ⟨r, -, herror⟩
            · exact ofGrammar_slotOf hslot
            · cases herror

theorem ofGrammar_expandAll {this : ModeIndex} {entries : List Contained}
    (herror : w.expandAll g this entries = .error e) : e.OfGrammar := by
  induction entries generalizing w with
  | nil => cases herror
  | cons entry rest ih =>
      rcases bind_eq_error.1 herror with hfirst | ⟨first, -, herror⟩
      · exact ofGrammar_expand hfirst
      · rcases bind_eq_error.1 herror with hothers | ⟨others, -, herror⟩
        · exact ih hothers
        · cases herror

end Workbench

namespace Call

variable {c next : Call} {fuel : Nat} {e : CompileError} {mode : Mode} {contains : List ModeIndex}
  {w w₁ w₂ : Workbench}

/-- The last part of a call, in which the terminators are made, fails through a pattern or a slot
that was not filled. -/
theorem Opens.fails_last {starts : Option ModeIndex} (hopens : c.Opens g ci mode contains w)
    (hinside : w.ensureAll g ci fuel c.index contains = .ok w₁)
    (hfollowing : Workbench.Following g ci fuel c.parent w₁ mode.starts starts w₂)
    (herror : (do
      let children ← contains.mapM w₂.compiledAt
      let self ← w₂.compiledAt c.index
      let terminators ← self.compileTerminators ci children
      return w₂.fill c.index
        { self with contains := contains, starts := starts, terminators := terminators }) =
          .error e) : c.Fails g ci fuel e := by
  rcases bind_eq_error.1 herror with hchildren | ⟨children, -, herror⟩
  · obtain ⟨child, hchild, hunfilled⟩ := mapM_eq_error hchildren
    exact .last hopens hinside hfollowing (List.mem_cons_of_mem _ hchild) hunfilled
  rcases bind_eq_error.1 herror with hself | ⟨self, -, herror⟩
  · exact .last hopens hinside hfollowing List.mem_cons_self hself
  rcases bind_eq_error.1 herror with hterminators | ⟨terminators, -, herror⟩
  · exact .grammar (ofTraits_compileTerminators self children e hterminators).ofGrammar
  · cases herror

/-- **How a call fails.** Each part of it can. -/
theorem fails_of_run_error (hreserved : c.workbench.slots[c.index]? = some (.reserved mode))
    (herror : c.run g ci (fuel + 1) = .error e) : c.Fails g ci fuel e := by
  unfold run Workbench.ensure at herror
  rw [hreserved] at herror
  rcases bind_eq_error.1 herror with hinherited | ⟨inherited, hinherited, herror⟩
  · cases hparent : c.parent with
    | none =>
        rw [hparent] at hinherited
        cases hinherited
    | some parent =>
        rw [hparent] at hinherited
        rcases bind_eq_error.1 hinherited with hunfilled | ⟨m, -, hunfilled⟩
        · exact .parent hparent hunfilled
        · cases hunfilled
  rcases bind_eq_error.1 herror with htraits | ⟨shell, hshell, herror⟩
  · exact .grammar (ofTraits_compileTraits mode inherited e htraits).ofGrammar
  rcases bind_eq_error.1 herror with hentries | ⟨⟨w, contains⟩, hexpand, herror⟩
  · exact .grammar (Workbench.ofGrammar_expandAll hentries)
  have hopens {entries : List ModeIndex} (heq : contains = entries) : c.Opens g ci mode entries w :=
    ⟨hreserved, inherited, shell, hinherited, hshell, heq ▸ hexpand⟩
  rcases bind_eq_error.1 herror with hinside | ⟨w₁, hinside, herror⟩
  · obtain ⟨before, child, after, w', heq, hbefore, hchild⟩ := foldlM_eq_error hinside
    have hcall : Call.run g ci fuel ⟨child, some c.index, w'⟩ = .error e := hchild
    exact .call (.inside (hopens heq) hbefore (open_of_run_error hcall)) hcall
  cases hstarts : mode.starts with
  | none =>
      simp only [hstarts] at herror
      have hfollowing : Workbench.Following g ci fuel c.parent w₁ mode.starts none w₁ := by
        rw [hstarts]
        exact .none
      exact (hopens rfl).fails_last hinside hfollowing herror
  | some id =>
      simp only [hstarts] at herror
      rcases bind_eq_error.1 herror with hslot | ⟨⟨w', following⟩, hslot, herror⟩
      · exact .grammar (Workbench.ofGrammar_slotOf hslot)
      rcases bind_eq_error.1 herror with hfollowing | ⟨w₂, hfollowing, herror⟩
      · have hcall : Call.run g ci fuel ⟨following, c.parent, w'⟩ = .error e := hfollowing
        exact .call (.following (hopens rfl) hinside hstarts hslot (open_of_run_error hcall)) hcall
      · exact (hopens rfl).fails_last hinside (hstarts ▸ .some hslot hfollowing) herror

end Call

/-! ### What holds of every call -/

/-- Slots of a prefix hold the modes of a prefix. -/
theorem Located.take {origins : List Origin} {indices : List ModeIndex} {ps : List Origin}
    (h : Located origins indices ps) (n : Nat) : Located origins (indices.take n) (ps.take n) := by
  rw [Located, List.map_take, List.map_take, h]

namespace Call

/-- The call compiles the mode of this origin, keeps the invariant, and is made against a parent
that has begun. -/
structure At (g : Grammar) (ci : Bool) (c : Call) (origins : List Origin) (p : Origin) : Prop where
  sound : ∃ underWay, Sound g ci underWay c.workbench origins
  origin : origins[c.index]? = some p
  reached : ReachedFrom g origins p c.parent
  parent : ∀ parent ∈ c.parent, ∃ s, shellAt c.workbench.slots parent = some s

namespace At

variable {c next last : Call} {fuel n : Nat} {e : CompileError} {mode : Mode}
  {contains : List ModeIndex} {w w₁ w₂ : Workbench} {origins : List Origin} {p : Origin}

/-- With the slots for the modes inside found, the call's own slot is under way. -/
theorem opens (h : c.At g ci origins p) (hopens : c.Opens g ci mode contains w) :
    ∃ underWay origins', Sound g ci underWay w origins' ∧
      Grows c.workbench.slots origins w.slots origins' ∧ p.source g = some mode ∧
      Located origins' contains (p.contents g) ∧ ∃ s, shellAt w.slots c.index = some s := by
  obtain ⟨underWay, hsound⟩ := h.sound
  obtain ⟨inherited, shell, hinherited, hshell, hexpand⟩ := hopens.expanded
  obtain ⟨q, hq, hsource⟩ := hsound.placed.reserved hopens.reserved
  obtain rfl := Option.some.inj (h.origin.symm.trans hq)
  obtain ⟨hbegun, hgrows, hs⟩ := Workbench.begin_sound hsound hopens.reserved h.origin hsource
    h.reached hinherited hshell
  obtain ⟨origins', hsound', hgrows', hcontains⟩ :=
    Workbench.expandAll_sound hsource hbegun h.origin hs List.drop_zero
      (fun k _ => hsound.placed.copy_notMem hopens.reserved h.origin k) hexpand
  rw [← Origin.contents_eq hsource] at hcontains
  exact ⟨_, origins', hsound', hgrows.trans hgrows', hsource, hcontains, _, hgrows'.shells hs⟩

/-- Compiling modes inside the call's own mode keeps the invariant. -/
theorem inside {underWay : List ModeIndex} {ps : List Origin} {parent : ModeIndex}
    (h : Sound g ci underWay w origins) (hp : origins[parent]? = some p)
    (hcontains : Located origins contains ps) (hps : ps ⊆ p.contents g)
    (hinside : w.ensureAll g ci fuel parent contains = .ok w₁) :
    ∃ origins', Sound g ci underWay w₁ origins' ∧ Grows w.slots origins w₁.slots origins' :=
  Workbench.foldlM_sound parent (Workbench.ensure_sound fuel) h hcontains
    (fun _ hq => ⟨p, hp, .contains (hps hq)⟩) hinside

/-- **One call leads to another.** That one is for a mode inside, or for the mode that follows, and
by then the slot of this one has begun. -/
theorem leads (h : c.At g ci origins p) (hleads : c.Leads g ci next) :
    ∃ origins' q, next.At g ci origins' q ∧
      Grows c.workbench.slots origins next.workbench.slots origins' ∧
      (∃ s, shellAt next.workbench.slots c.index = some s) ∧
      (q ∈ p.contents g ∨ p.follower g = some q) := by
  cases hleads with
  | @inside mode before after child w w' fuel hopens hbefore hopen =>
      obtain ⟨underWay, origins₁, h₁, hgrows₁, hsource, hcontains, s, hs⟩ := h.opens hopens
      have hmem : child ∈ before ++ child :: after := by simp
      obtain ⟨q, hq, hchild⟩ := hcontains.exists_origin hmem
      have hprefix := hcontains.take before.length
      rw [List.take_left] at hprefix
      have hp₁ := getElem?_of_isPrefix hgrows₁.origins h.origin
      obtain ⟨origins₂, h₂, hgrows₂⟩ := inside h₁ hp₁ hprefix (List.take_subset _ _) hbefore
      refine ⟨origins₂, q, ⟨⟨_, h₂⟩, getElem?_of_isPrefix hgrows₂.origins hchild, ?_, ?_⟩,
        hgrows₁.trans hgrows₂, ⟨s, hgrows₂.shells hs⟩, .inl hq⟩
      · exact ⟨p, getElem?_of_isPrefix hgrows₂.origins hp₁, .contains hq⟩
      · rintro parent hparent
        obtain rfl := Option.some.inj hparent
        exact ⟨s, hgrows₂.shells hs⟩
  | @following mode contains w w₁ w₂ fuel id index hopens hinside hstarts hslot hopen =>
      obtain ⟨underWay, origins₁, h₁, hgrows₁, hsource, hcontains, s, hs⟩ := h.opens hopens
      have hp₁ := getElem?_of_isPrefix hgrows₁.origins h.origin
      obtain ⟨origins₂, h₂, hgrows₂⟩ :=
        inside h₁ hp₁ hcontains (List.Subset.refl _) hinside
      obtain ⟨origins₃, h₃, hgrows₃, hindex, -⟩ := Workbench.slotOf_sound h₂ hslot
      have hgrows := (hgrows₁.trans hgrows₂).trans hgrows₃
      have hfollower : p.follower g = some (.declared id) := by
        rw [Origin.follower_eq hsource, hstarts, Option.map_some]
      refine ⟨origins₃, .declared id, ⟨⟨_, h₃⟩, hindex, ?_, ?_⟩, hgrows,
        ⟨s, hgrows₃.shells (hgrows₂.shells hs)⟩, .inr hfollower⟩
      · exact (h.reached.mono hgrows.origins).follows hfollower
      · intro parent hparent
        obtain ⟨s, hs⟩ := h.parent parent hparent
        exact ⟨s, hgrows.shells hs⟩

/-- At the end of a call its own slot and those of the modes inside are filled. -/
theorem exists_shellAt_last {starts : Option ModeIndex} {index : ModeIndex}
    (h : c.At g ci origins p) (hopens : c.Opens g ci mode contains w)
    (hinside : w.ensureAll g ci fuel c.index contains = .ok w₁)
    (hfollowing : Workbench.Following g ci fuel c.parent w₁ mode.starts starts w₂)
    (hindex : index ∈ c.index :: contains) : ∃ s, shellAt w₂.slots index = some s := by
  obtain ⟨underWay, origins₁, h₁, hgrows₁, hsource, hcontains, s, hs⟩ := h.opens hopens
  have hp₁ := getElem?_of_isPrefix hgrows₁.origins h.origin
  obtain ⟨origins₂, h₂, hgrows₂⟩ := inside h₁ hp₁ hcontains (List.Subset.refl _) hinside
  obtain ⟨origins₃, h₃, hgrows₃, -⟩ := Workbench.follow_sound (Workbench.ensure_sound fuel) h₂
    hsource (h.reached.mono (hgrows₁.trans hgrows₂).origins) hfollowing
  rcases List.mem_cons.1 hindex with rfl | hmem
  · exact ⟨s, hgrows₃.shells (hgrows₂.shells hs)⟩
  · obtain ⟨q, -, hq⟩ := hcontains.exists_origin hmem
    have hlt : index < w₂.slots.size := by
      rw [← h₃.placed.size]
      exact (List.getElem?_eq_some_iff.1
        (getElem?_of_isPrefix (hgrows₂.trans hgrows₃).origins hq)).1
    refine Workbench.exists_shellAt hlt fun hopen => ?_
    exact ((hopen.of_following (Workbench.Open.of_ensure fuel) hfollowing).of_foldlM
      (Workbench.Open.of_ensure fuel) hinside).2 hmem

/-- **Where an error comes from.** A call fails through the grammar, or at the limit. Then it leads,
in as many steps as the limit allows, to a call that is still to be made. -/
theorem error_of_run (h : c.At g ci origins p) (herror : c.run g ci fuel = .error e) :
    e.OfGrammar ∨
      e = .endless ∧ ∃ last, Chain g ci fuel c last ∧ last.workbench.Open last.index := by
  induction fuel generalizing c origins p with
  | zero =>
      have hopen := open_of_run_error herror
      obtain ⟨mode, hreserved⟩ := hopen
      unfold run Workbench.ensure at herror
      rw [hreserved] at herror
      cases herror
      exact .inr ⟨rfl, c, .refl c, mode, hreserved⟩
  | succ fuel ih =>
      obtain ⟨mode, hreserved⟩ := open_of_run_error herror
      cases fails_of_run_error hreserved herror with
      | grammar hgrammar => exact .inl hgrammar
      | call hleads hnext =>
          obtain ⟨origins', q, hat, -⟩ := h.leads hleads
          refine (ih hat hnext).imp_right ?_
          rintro ⟨rfl, last, hchain, hopen⟩
          exact ⟨rfl, last, .step hleads hchain, hopen⟩
      | parent hparent hunfilled =>
          obtain ⟨s, hs⟩ := h.parent _ hparent
          exact absurd hunfilled (Workbench.compiledAt_ne_error hs e)
      | last hopens hinside hfollowing hindex hunfilled =>
          obtain ⟨s, hs⟩ := h.exists_shellAt_last hopens hinside hfollowing hindex
          exact absurd hunfilled (Workbench.compiledAt_ne_error hs e)

end At

end Call

/-! ### The first call -/

namespace Grammar

/-- The call for the root, whose slot is the only one. -/
def firstCall (g : Grammar) : Call where
  index := CompiledGrammar.rootIndex
  parent := none
  workbench :=
    { slots := #[.reserved g.root], declared := [(rootId, CompiledGrammar.rootIndex)] }

theorem get?_rootId (g : Grammar) : g.get? rootId = some g.root :=
  Array.getElem?_eq_getElem g.size_pos

theorem slotOf_rootId (g : Grammar) :
    Workbench.slotOf {} g rootId = .ok (g.firstCall.workbench, g.firstCall.index) := by
  have hroot : Workbench.declaration g rootId = .ok g.root :=
    Workbench.declaration_eq_ok.2 g.get?_rootId
  simp only [Workbench.slotOf, List.lookup_nil, hroot]
  rfl

theorem compileWithin_eq (limit : Nat) :
    g.compileWithin ci limit = (do
      let w ← g.firstCall.run g ci limit
      return ⟨← w.finish, ci⟩) := by
  rw [compileWithin, slotOf_rootId]
  rfl

theorem firstCall_at (g : Grammar) (ci : Bool) :
    g.firstCall.At g ci [.declared rootId] (.declared rootId) := by
  have hempty : Sound g ci [] {} [] := .empty
  obtain ⟨origins, hsound, -, hindex, -⟩ := Workbench.slotOf_sound hempty g.slotOf_rootId
  have hlength : origins.length = 1 := hsound.placed.size
  obtain ⟨p, rfl⟩ := List.length_eq_one_iff.1 hlength
  obtain rfl : p = .declared rootId := Option.some.inj hindex
  exact ⟨⟨[], hsound⟩, rfl, .root, nofun⟩

/-- Every slot has been filled when the first call is through. -/
theorem finish_ne_error {limit : Nat} {w : Workbench} (hok : g.firstCall.run g ci limit = .ok w)
    (e : CompileError) : w.finish ≠ .error e := by
  intro herror
  have hlist := congrArg (Except.map Array.toList) herror
  change Array.toList <$> (Array.range w.slots.size).mapM w.compiledAt = .error e at hlist
  rw [Array.toList_mapM, Array.toList_range] at hlist
  obtain ⟨index, hindex, hunfilled⟩ := mapM_eq_error hlist
  obtain ⟨s, hs⟩ := Workbench.exists_shellAt (List.mem_range.1 hindex) fun hopen => by
    obtain ⟨⟨mode, hfirst⟩, hne⟩ := hopen.of_ensure limit hok
    obtain ⟨hlt, -⟩ := Array.getElem?_eq_some_iff.1 hfirst
    exact hne (Nat.lt_one_iff.1 hlt)
  exact Workbench.compiledAt_ne_error hs e hunfilled

theorem run_eq_error_of_compileWithin {limit : Nat} {e : CompileError}
    (herror : g.compileWithin ci limit = .error e) : g.firstCall.run g ci limit = .error e := by
  rw [compileWithin_eq] at herror
  rcases bind_eq_error.1 herror with hrun | ⟨w, hrun, herror⟩
  · exact hrun
  · rcases bind_eq_error.1 herror with hfinish | ⟨modes, -, herror⟩
    · exact absurd hfinish (finish_ne_error hrun e)
    · cases herror

end Grammar

end LexicalModes
