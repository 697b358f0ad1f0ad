import LexicalModes.Proofs.Recursion

/-!
What compiling reports of a grammar. Whatever limit is set to the depth of the recursion, no slot
stays open when it is through, and a number that leads nowhere is reported only if it stands in a
mode that the root leads to (`Grammar.Reachable`). What other modes refer to is never looked at.
-/

namespace LexicalModes

namespace Grammar

/-- The modes that the root leads to: through lists of contained modes, where a mode with variants
is represented by each of them laid over it, and through modes that follow. -/
inductive Reachable (g : Grammar) : Mode → Prop
  | root : Reachable g g.root
  | contained {mode next : Mode} {id : ModeId} : Reachable g mode → .mode id ∈ mode.contains →
      g.get? id = some next → next.variants = [] → Reachable g next
  | variant {mode next variant : Mode} {id : ModeId} : Reachable g mode → .mode id ∈ mode.contains →
      g.get? id = some next → variant ∈ next.variants → Reachable g (next.overlay variant)
  | follower {mode next : Mode} {id : ModeId} : Reachable g mode → mode.starts = some id →
      g.get? id = some next → Reachable g next

theorem spreads_reachable (g : Grammar) : g.Spreads g.Reachable where
  root mode hmode := by
    obtain rfl := Option.some.inj (g.get?_rootId.symm.trans hmode)
    exact .root
  contained _ _ _ hmode hentry hnext hvariants := .contained hmode hentry hnext hvariants
  variant _ _ _ _ hmode hentry hnext hvariant := .variant hmode hentry hnext hvariant
  follower _ _ _ hmode hstarts hnext := .follower hmode hstarts hnext

theorem get?_eq_none_iff {g : Grammar} {id : ModeId} : g.get? id = none ↔ g.size ≤ id :=
  Array.getElem?_eq_none_iff

/-- **What is reported.** However deep the recursion may go, compiling never finds a slot unfilled.
If it reports that a number leads nowhere, the number is too large and a mode that the root leads to
refers to it; so it reports none if all such modes refer to numbers of the grammar. -/
theorem dangling_reported (g : Grammar) (ci : Bool) :
    g.compile ci = g.compileWithin ci g.depthBound ∧
      ∀ limit,
        (∀ index, g.compileWithin ci limit ≠ .error (.unresolved index)) ∧
        (∀ id, g.compileWithin ci limit = .error (.danglingMode id) →
          g.size ≤ id ∧ ∃ mode, g.Reachable mode ∧ mode.RefersTo id) ∧
        ((∀ mode id, g.Reachable mode → mode.RefersTo id → id < g.size) →
          ∀ id, g.compileWithin ci limit ≠ .error (.danglingMode id)) := by
  refine ⟨rfl, fun limit => ?_⟩
  have hunresolved : ∀ index, g.compileWithin ci limit ≠ .error (.unresolved index) := by
    intro index herror
    rcases (g.firstCall_at ci).error_of_run (run_eq_error_of_compileWithin herror) with
      hgrammar | ⟨hendless, -⟩
    · exact hgrammar
    · cases hendless
  have hdangling : ∀ id, g.compileWithin ci limit = .error (.danglingMode id) →
      g.size ≤ id ∧ ∃ mode, g.Reachable mode ∧ mode.RefersTo id := by
    intro id herror
    obtain ⟨hnone, hmode⟩ := g.spreads_reachable.founded_compileWithin limit _ herror
    exact ⟨get?_eq_none_iff.1 hnone, hmode⟩
  refine ⟨hunresolved, hdangling, fun hinside id herror => ?_⟩
  obtain ⟨hsize, mode, hmode, hrefers⟩ := hdangling id herror
  exact absurd (hinside mode id hmode hrefers) (Nat.not_lt.2 hsize)

/-- A grammar in which one variant of a mode refers to a number that leads nowhere, and so does a
mode that is not reached. -/
def sampleStray : Grammar :=
  ⟨#[{ contains := [.mode 1], lexemes := some "z" },
    { beginPattern := some "if", endPattern := some "fi", lexemes := some "z", contains := [.this],
      variants := [{ relevance := some 2 }, { contains := [.mode 7] }] },
    { beginPattern := some "x", lexemes := some "z", contains := [.mode 8] }], by decide⟩

/-- The number that is reported is the one in the variant. -/
theorem dangling_reported_sample :
    sampleStray.compile false = .error (.danglingMode 7) ∧
      sampleStray.size ≤ 7 ∧ ∃ mode, sampleStray.Reachable mode ∧ mode.RefersTo 7 := by
  have herror : sampleStray.compile false = .error (.danglingMode 7) :=
    eq_error_of_match (by decide +kernel)
  obtain ⟨heq, hlimit⟩ := dangling_reported sampleStray false
  exact ⟨herror, (hlimit sampleStray.depthBound).2.1 7 (heq ▸ herror)⟩

/-- What a mode that is not reached refers to does not matter. -/
example : (compile ⟨#[{ contains := [.this], lexemes := some "z" },
    { beginPattern := some "x", lexemes := some "z", contains := [.mode 8] }], by decide⟩
      false).isOk = true := by
  decide +kernel

end Grammar

end LexicalModes
