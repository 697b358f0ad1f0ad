import LexicalModes.Compiled
import LexicalModes.Proofs.Outcomes

/-!
Where compiling reports that a number leads nowhere. A number is looked up only when a mode that is
being compiled refers to it, and every mode that gets a slot is the root, or one that such a mode
leads to. So a property that spreads from the root along these references (`Grammar.Spreads`) holds
of every mode whose slot is reserved (`Workbench.Holds`), and with it of the mode that refers to the
missing number.
-/

namespace LexicalModes

/-- The mode has an entry for the number, or is followed by the mode with that number. -/
def Mode.RefersTo (mode : Mode) (id : ModeId) : Prop :=
  .mode id ∈ mode.contains ∨ mode.starts = some id

/-- The property holds of the root, and passes from a mode to those it refers to. Variants come in
the place of the mode that has them. -/
structure Grammar.Spreads (g : Grammar) (R : Mode → Prop) : Prop where
  root : ∀ mode, g.get? rootId = some mode → R mode
  contained : ∀ mode id next, R mode → .mode id ∈ mode.contains → g.get? id = some next →
    next.variants = [] → R next
  variant : ∀ mode id next variant, R mode → .mode id ∈ mode.contains → g.get? id = some next →
    variant ∈ next.variants → R (next.overlay variant)
  follower : ∀ mode id next, R mode → mode.starts = some id → g.get? id = some next → R next

/-- If the error is about a number that leads nowhere, then the number is not in the grammar, and a
mode with the property refers to it. -/
def CompileError.Founded (g : Grammar) (R : Mode → Prop) : CompileError → Prop
  | .danglingMode id => g.get? id = none ∧ ∃ mode, R mode ∧ mode.RefersTo id
  | _ => True

/-! ### Outcomes -/

section Outcome

variable {ε α β : Type} {Fault : ε → Prop} {Result : α → Prop} {Last : β → Prop}

/-- The computation fails with the one property, or comes to a result with the other. -/
def Outcome (Fault : ε → Prop) (Result : α → Prop) : Except ε α → Prop
  | .ok a => Result a
  | .error e => Fault e

theorem Outcome.bind {x : Except ε α} {f : α → Except ε β} (hx : Outcome Fault Result x)
    (hf : ∀ a, Result a → Outcome Fault Last (f a)) : Outcome Fault Last (x >>= f) := by
  cases x with
  | error e => exact hx
  | ok a => exact hf a hx

theorem FailsOnly.bind_outcome {x : Except ε α} {f : α → Except ε β} (hx : FailsOnly Fault x)
    (hf : ∀ a, Outcome Fault Last (f a)) : Outcome Fault Last (x >>= f) := by
  cases x with
  | error e => exact hx e rfl
  | ok a => exact hf a

theorem Outcome.failsOnly {x : Except ε α} (hx : Outcome Fault Result x) : FailsOnly Fault x := by
  cases x with
  | error e => exact failsOnly_error.2 hx
  | ok a => exact failsOnly_ok a

theorem failsOnly_mapM {f : α → Except ε β} (hf : ∀ a, FailsOnly Fault (f a)) (as : List α) :
    FailsOnly Fault (as.mapM f) := by
  induction as with
  | nil => exact failsOnly_ok _
  | cons a rest ih =>
      rw [List.mapM_cons]
      exact (hf a).bind fun _ _ => ih.bind fun _ _ => failsOnly_ok _

theorem failsOnly_mapM_option {f : α → Except ε β} (hf : ∀ a, FailsOnly Fault (f a))
    (a : Option α) : FailsOnly Fault (a.mapM f) := by
  cases a with
  | none => exact failsOnly_ok _
  | some a =>
      rw [Option.mapM_some]
      exact (hf a).map some

end Outcome

/-! ### Errors of a single mode -/

/-- The error is about what a mode declares of itself, a pattern or a keyword. -/
def CompileError.OfTraits : CompileError → Prop
  | .pattern _ _ | .keywordWeight _ => True
  | .danglingMode _ | .unresolved _ | .endless => False

section OfTraits

variable {ci : Bool}

theorem ofTraits_addWords (table : KeywordTable) (words : List (String × String)) :
    FailsOnly CompileError.OfTraits (Keywords.addWords table words) := by
  induction words generalizing table with
  | nil => exact failsOnly_ok _
  | cons word rest ih =>
      rw [Keywords.addWords]
      split
      · exact ih _
      · exact failsOnly_error.2 trivial

theorem ofTraits_compilePattern (source : String) :
    FailsOnly CompileError.OfTraits (compilePattern ci source) := by
  rw [compilePattern]
  split
  · exact failsOnly_ok _
  · exact failsOnly_error.2 trivial

theorem ofTraits_compileSourced (source : String) :
    FailsOnly CompileError.OfTraits (compileSourced ci source) :=
  (ofTraits_compilePattern source).bind fun _ _ => failsOnly_ok _

theorem ofTraits_compileTraits (mode : Mode) (parent : Option String) :
    FailsOnly CompileError.OfTraits (mode.compileTraits ci parent) := by
  have hillegal : FailsOnly CompileError.OfTraits
      ((nonempty? mode.illegal).mapM (compileSourced ci)) :=
    failsOnly_mapM_option ofTraits_compileSourced _
  rw [Mode.compileTraits]
  refine (failsOnly_mapM_option (fun words => ofTraits_addWords _ _) _).bind fun keywords _ => ?_
  refine (ofTraits_compilePattern _).bind fun lexemes _ => ?_
  cases parent with
  | none => exact hillegal.bind fun _ _ => failsOnly_ok _
  | some inherited =>
      refine ((ofTraits_compileSourced _).map some).bind fun begins _ => ?_
      refine (failsOnly_mapM_option ofTraits_compileSourced _).bind fun ends _ => ?_
      exact hillegal.bind fun _ _ => failsOnly_ok _

theorem ofTraits_compileTerminators (mode : CompiledMode) (children : List CompiledMode) :
    FailsOnly CompileError.OfTraits (mode.compileTerminators ci children) := by
  rw [CompiledMode.compileTerminators]
  split
  · exact failsOnly_ok _
  · exact (ofTraits_compilePattern _).map some

end OfTraits

section Founded

variable {g : Grammar} {R : Mode → Prop} {ci : Bool}

/-- An error about what a mode declares of itself is about no number. -/
theorem CompileError.OfTraits.founded {e : CompileError} (h : e.OfTraits) : e.Founded g R := by
  cases e with
  | danglingMode id => cases h
  | pattern source reason => trivial
  | keywordWeight keyword => trivial
  | unresolved index => trivial
  | endless => trivial

theorem founded_compiledAt (w : Workbench) (index : ModeIndex) :
    FailsOnly (CompileError.Founded g R) (w.compiledAt index) := by
  rw [Workbench.compiledAt]
  split
  · exact failsOnly_ok _
  · exact failsOnly_error.2 trivial

/-! ### Reserved modes -/

namespace Workbench

variable {w : Workbench}

/-- Every mode whose slot is still open has the property. -/
def Holds (R : Mode → Prop) (w : Workbench) : Prop :=
  ∀ (index : ModeIndex) (mode : Mode), w.slots[index]? = some (.reserved mode) → R mode

theorem Holds.reserve (h : w.Holds R) {mode : Mode} (hmode : R mode) :
    (w.reserve mode).1.Holds R := by
  intro index other hother
  rw [Workbench.reserve] at hother
  dsimp only at hother
  rw [Array.getElem?_push] at hother
  split at hother
  · cases hother
    exact hmode
  · exact h index other hother

theorem Holds.reserveAll (h : w.Holds R) {modes : List Mode} (hmodes : ∀ mode ∈ modes, R mode) :
    (w.reserveAll modes).1.Holds R := by
  induction modes generalizing w with
  | nil => exact h
  | cons mode rest ih =>
      apply ih (h.reserve (hmodes mode List.mem_cons_self))
      exact fun other hother => hmodes other (List.mem_cons_of_mem mode hother)

theorem Holds.fill (h : w.Holds R) (index : ModeIndex) (compiled : CompiledMode) :
    (w.fill index compiled).Holds R := by
  intro other mode hmode
  rw [Workbench.fill] at hmode
  dsimp only at hmode
  rw [Array.getElem?_setIfInBounds] at hmode
  split at hmode
  · split at hmode <;> cases hmode
  · exact h other mode hmode

theorem outcome_declaration {id : ModeId}
    (hid : g.get? id = none → ∃ mode, R mode ∧ mode.RefersTo id) :
    Outcome (CompileError.Founded g R) (fun mode => g.get? id = some mode) (declaration g id) := by
  rw [declaration]
  split
  · assumption
  · rename_i hnone
    exact ⟨hnone, hid hnone⟩

theorem outcome_slotOf (h : w.Holds R) {id : ModeId}
    (hid : g.get? id = none → ∃ mode, R mode ∧ mode.RefersTo id)
    (hnext : ∀ next, g.get? id = some next → R next) :
    Outcome (CompileError.Founded g R) (fun r => r.1.Holds R) (w.slotOf g id) := by
  rw [slotOf]
  split
  · exact h
  · exact (outcome_declaration hid).bind fun mode hmode => h.reserve (hnext mode hmode)

variable (hR : g.Spreads R)

include hR in
theorem outcome_expand (h : w.Holds R) {mode : Mode} (hmode : R mode) (this : ModeIndex)
    {entry : Contained} (hentry : entry ∈ mode.contains) :
    Outcome (CompileError.Founded g R) (fun r => r.1.Holds R) (w.expand g this entry) := by
  cases entry with
  | this => exact h
  | mode id =>
      have hid : g.get? id = none → ∃ mode, R mode ∧ mode.RefersTo id := fun _ =>
        ⟨mode, hmode, .inl hentry⟩
      rw [expand]
      refine (outcome_declaration hid).bind fun next hnext => ?_
      split
      · split
        · exact h
        · apply h.reserveAll
          intro overlaid hoverlaid
          obtain ⟨variant, hvariant, rfl⟩ := List.mem_map.1 hoverlaid
          exact hR.variant mode id next variant hmode hentry hnext hvariant
      · rename_i hvariants
        have hnone : next.variants = [] := by simpa using hvariants
        have hnextR : R next := hR.contained mode id next hmode hentry hnext hnone
        split
        · exact h.reserve hnextR
        · refine (outcome_slotOf h hid fun other hother => ?_).bind fun _ hslot => hslot
          rw [hnext] at hother
          cases hother
          exact hnextR

include hR in
theorem outcome_expandAll {mode : Mode} (hmode : R mode) (this : ModeIndex)
    {entries : List Contained} (hentries : entries ⊆ mode.contains) (h : w.Holds R) :
    Outcome (CompileError.Founded g R) (fun r => r.1.Holds R) (w.expandAll g this entries) := by
  induction entries generalizing w with
  | nil => exact h
  | cons entry rest ih =>
      rw [List.cons_subset] at hentries
      rw [expandAll]
      refine (outcome_expand hR h hmode this hentries.1).bind fun first hfirst => ?_
      exact (ih hentries.2 hfirst).bind fun others hothers => hothers

theorem outcome_foldlM {step : Workbench → ModeIndex → Except CompileError Workbench}
    (hstep : ∀ w index, w.Holds R →
      Outcome (CompileError.Founded g R) (fun w => w.Holds R) (step w index))
    (indices : List ModeIndex) (h : w.Holds R) :
    Outcome (CompileError.Founded g R) (fun w => w.Holds R) (indices.foldlM step w) := by
  induction indices generalizing w with
  | nil => exact h
  | cons index rest ih =>
      rw [List.foldlM_cons]
      exact (hstep w index h).bind fun next hnext => ih hnext

theorem founded_inheritedEnd (parent : Option ModeIndex) :
    FailsOnly (CompileError.Founded g R) (w.inheritedEnd parent) := by
  cases parent with
  | none => exact failsOnly_ok _
  | some parent => exact (founded_compiledAt w parent).bind fun _ _ => failsOnly_ok _

include hR in
/-- **Compiling a slot** and all that it leads to, by induction on the fuel. -/
theorem outcome_ensure (fuel : Nat) (index : ModeIndex) (parent : Option ModeIndex)
    (h : w.Holds R) :
    Outcome (CompileError.Founded g R) (fun w => w.Holds R) (ensure g ci fuel index parent w) := by
  induction fuel generalizing index parent w with
  | zero =>
      rw [ensure]
      split
      · exact trivial
      · exact h
  | succ fuel ih =>
      rw [ensure]
      split
      case h_2 => exact h
      case h_1 mode hreserved =>
        have hmode : R mode := h index mode hreserved
        have hfounded : ∀ e : CompileError, e.OfTraits → e.Founded g R := fun _ he => he.founded
        refine (founded_inheritedEnd parent).bind_outcome fun inherited => ?_
        refine ((ofTraits_compileTraits mode inherited).mono hfounded).bind_outcome
          fun shell => ?_
        refine (outcome_expandAll hR hmode index (List.Subset.refl _) (h.fill index shell)).bind
          fun expanded hexpanded => ?_
        refine (outcome_foldlM (fun w child hw => ih child (some index) hw) expanded.2
          hexpanded).bind fun inside hinside => ?_
        have hclose : ∀ (last : Workbench) (starts : Option ModeIndex), last.Holds R →
            Outcome (CompileError.Founded g R) (fun w => w.Holds R) (do
              let children ← expanded.2.mapM last.compiledAt
              let self ← last.compiledAt index
              let terminators ← self.compileTerminators ci children
              pure (last.fill index { self with
                contains := expanded.2, starts := starts, terminators := terminators })) := by
          intro last starts hlast
          refine (failsOnly_mapM (founded_compiledAt last) expanded.2).bind_outcome
            fun children => ?_
          refine (founded_compiledAt last index).bind_outcome fun self => ?_
          refine ((ofTraits_compileTerminators self children).mono hfounded).bind_outcome
            fun terminators => ?_
          exact hlast.fill index _
        cases hstarts : mode.starts with
        | none => exact hclose inside none hinside
        | some id =>
            refine (outcome_slotOf hinside (fun _ => ⟨mode, hmode, .inr hstarts⟩)
              fun next hnext => hR.follower mode id next hmode hstarts hnext).bind
                fun slot hslot => ?_
            exact (ih slot.2 parent hslot).bind fun last hlast => hclose last (some slot.2) hlast

theorem founded_finish : FailsOnly (CompileError.Founded g R) w.finish := by
  rw [finish, Array.mapM_eq_mapM_toList]
  exact (failsOnly_mapM (founded_compiledAt w) _).map List.toArray

end Workbench

/-- Compile the grammar, with modes reached through one another no deeper than the limit. -/
def Grammar.compileWithin (g : Grammar) (ci : Bool) (limit : Nat) :
    Except CompileError CompiledGrammar := do
  let (w, root) ← Workbench.slotOf {} g rootId
  let w ← Workbench.ensure g ci limit root none w
  return ⟨← w.finish, ci⟩

/-- **Compiling** reports that a number leads nowhere only if it is not in the grammar and a mode
that is reached from the root refers to it. -/
theorem Grammar.Spreads.founded_compileWithin (hR : g.Spreads R) (limit : Nat) :
    FailsOnly (CompileError.Founded g R) (g.compileWithin ci limit) := by
  have hempty : Workbench.Holds R {} := by
    intro index mode hmode
    simp at hmode
  have hroot : g.get? Grammar.rootId ≠ none := by
    rw [Grammar.get?, Ne, Array.getElem?_eq_none_iff, Nat.not_le]
    exact g.size_pos
  have hstart := Workbench.outcome_slotOf hempty (fun hnone => absurd hnone hroot) hR.root
  have hcompile : Outcome (CompileError.Founded g R) (fun _ => True)
      (g.compileWithin ci limit) := by
    refine hstart.bind fun slot hslot => ?_
    refine (Workbench.outcome_ensure hR _ slot.2 none hslot).bind fun w hw => ?_
    exact (Workbench.founded_finish).bind_outcome fun modes => trivial
  exact hcompile.failsOnly

theorem Grammar.Spreads.founded_compile (hR : g.Spreads R) :
    FailsOnly (CompileError.Founded g R) (g.compile ci) :=
  hR.founded_compileWithin g.depthBound

end Founded

end LexicalModes
