import Mathlib
import LexicalModes.Proofs.Passing
import LexicalModes.Proofs.Terminators

/-!
The parentheses that are counted when patterns are joined, and the groups that the patterns have.
Reading a pattern opens groups and passes the starts of pieces. In an ordinary pattern the groups
opened so far and the weight of what is still to be read always make up the same sum (`Counts`):
every reader keeps it (`keeps`), and when nothing is left to be read the sum is the number of
groups.
-/

namespace LexicalModes

open Pattern

/-! ### What reading keeps -/

/-- The groups opened so far and what is still to be read weigh so much together, and blanks are not
skipped. -/
structure Counts (total : Int) (cursor : Cursor) : Prop where
  spaced : cursor.flags.spaced = false
  tallies : Tallies cursor.rest (total - cursor.groups)

/-- Read the closing brace of the bounds of a repeat. -/
def closeBounds? (bounds : Bounds) (cursor : Cursor) : Option (Bounds × Cursor) := do
  let cursor ← cursor.skip
  match cursor.rest with
  | '\x7d' :: rest => return (bounds, cursor.moveTo rest)
  | _ => none

/-- What was read is followed by a cursor that weighs the same. -/
def Continues {α : Type} (total : Int) (found : α × Cursor) : Prop := Counts total found.2

namespace Counts

variable {total : Int} {cursor next : Cursor}

theorem movedPast (h : Counts total cursor) (hmoved : MovedPast cursor next) :
    Counts total next := by
  refine ⟨hmoved.flags ▸ h.spaced, ?_⟩
  rw [hmoved.groups]
  exact h.tallies.past hmoved.past

/-- Moving on past a character. -/
theorem moveTo {c : Char} {rest : List Char} (h : Counts total cursor)
    (hrest : cursor.rest = c :: rest) (hc : isPlain c = true) : Counts total (cursor.moveTo rest) :=
  ⟨h.spaced, (Tallies.cons_plain_iff hc).1 (hrest ▸ h.tallies)⟩

/-- Nothing is skipped. -/
theorem skip_eq (h : Counts total cursor) : cursor.skip = some cursor := by
  rw [Cursor.skip, h.spaced, h.tallies.skipFrom_eq]
  rfl

theorem skip (h : Counts total cursor) : Yields (Counts total) cursor.skip := by
  rw [h.skip_eq]
  exact .some h

theorem moveToNat (h : Counts total cursor) {found : Nat × List Char}
    (hfound : readNat? cursor.rest = some found) : Counts total (cursor.moveTo found.2) := by
  rw [readNat?_rest _ _ hfound]
  exact h.movedPast (.moveTo (past_dropWhile_isDigit _))

theorem closeBounds (h : Counts total cursor) (bounds : Bounds) :
    Yields (Continues total) (closeBounds? bounds cursor) := by
  refine h.skip.bind fun cursor h => ?_
  split
  · rename_i rest hrest
    exact .some (h.moveTo hrest (by decide))
  · exact .none

theorem readBounds (h : Counts total cursor) : Yields (Continues total) (readBounds? cursor) := by
  unfold readBounds?
  refine h.skip.bind fun cursor h => ?_
  extract_lets +lift afterLeast
  have hleast : ∀ found, Continues total found → Yields (Continues total) (afterLeast found) := by
    rintro ⟨least, cursor⟩ h
    refine (Counts.skip h).bind fun cursor h => ?_
    dsimp only
    split
    · exact h.closeBounds ⟨least, _⟩
    · rename_i rest hrest
      refine (h.moveTo hrest (by decide)).skip.bind fun cursor h => ?_
      split
      · rename_i n rest hnat
        exact (h.moveToNat hnat).closeBounds ⟨least, _⟩
      · exact h.closeBounds ⟨least, _⟩
    · exact .none
  split
  · exact hleast (0, cursor) h
  · refine Yields.bind (fun least hleast => ?_) hleast
    obtain ⟨found, hfound, hmoved⟩ := Option.map_eq_some_iff.1 hleast
    cases hmoved
    exact h.moveToNat hfound

theorem readRepeat (h : Counts total cursor) : Yields (Continues total) (readRepeat? cursor) := by
  unfold readRepeat?
  split
  · rename_i rest hrest
    exact .some (h.moveTo hrest (by decide))
  · rename_i rest hrest
    exact .some (h.moveTo hrest (by decide))
  · rename_i rest hrest
    exact .some (h.moveTo hrest (by decide))
  · rename_i rest hrest
    exact (h.moveTo hrest (by decide)).readBounds
  · exact .none

theorem finishRepeat (h : Counts total cursor) (piece : Node) (bounds : Bounds) :
    Yields (Continues total) (finishRepeat? piece bounds cursor) := by
  unfold finishRepeat?
  split
  · exact .none
  refine h.skip.bind fun cursor h => ?_
  split
  rename_i lazy next hlazy
  have hnext : Counts total next := by
    split at hlazy
    · rename_i rest hrest
      cases hlazy
      exact h.moveTo hrest (by decide)
    · cases hlazy
      exact h
  dsimp only
  split
  · rename_i rest hrest
    exact .some (hnext.moveTo hrest (by decide))
  · exact .some hnext

theorem readClose (h : Counts total cursor) : Yields (Counts total) (readClose? cursor) := by
  unfold readClose?
  refine h.skip.bind fun cursor h => ?_
  split
  · rename_i rest hrest
    exact .some (h.moveTo hrest (by decide))
  · exact .none

theorem readNamedRef (h : Counts total cursor) (relative : Bool) {closing : Char}
    (hclosing : isInert closing = true) :
    Yields (Continues total) (readNamedRef? relative closing cursor) :=
  (readNamedRef?_movedPast relative hclosing cursor).mono fun _ hmoved => h.movedPast hmoved

theorem readTestedRef (h : Counts total cursor) :
    Yields (fun found => ∀ tested ∈ found, Continues total tested) (readTestedRef? cursor) := by
  have hsome : ∀ found : Nat × Cursor, Continues total found →
      ∀ tested ∈ some found, Continues total tested := by
    rintro found hfound _ ⟨⟩
    exact hfound
  unfold readTestedRef?
  split
  · rename_i rest hrest
    exact ((h.moveTo hrest (by decide)).readNamedRef true (by decide)).map hsome
  · rename_i rest hrest
    exact ((h.moveTo hrest (by decide)).readNamedRef true (by decide)).map hsome
  · split
    · refine (readNumberedRef?_rest cursor).map fun found hmoved => hsome found ?_
      exact h.movedPast ⟨hmoved.flags, hmoved.groups, hmoved.rest ▸ past_dropWhile_isDigit _⟩
    · exact .some nofun
  · exact .none

end Counts

/-! ### Openings -/

/-- The letter of a flag is plain. It is the one that has blanks skipped, or one of the others and
leaves that alone. -/
theorem update?_cases {flags flags' : Flags} {clear : Bool} {c : Char}
    (h : flags.update? clear c = some flags') :
    isPlain c = true ∧ (c = 'x' ∧ flags'.spaced = !clear ∨
      isOtherFlag c = true ∧ flags'.spaced = flags.spaced) := by
  unfold Flags.update? at h
  split at h
  · cases h
    exact ⟨by decide, .inr ⟨by decide, rfl⟩⟩
  · cases h
    exact ⟨by decide, .inr ⟨by decide, rfl⟩⟩
  · cases h
    exact ⟨by decide, .inr ⟨by decide, rfl⟩⟩
  · cases h
    exact ⟨by decide, .inr ⟨by decide, rfl⟩⟩
  · cases h
    exact ⟨by decide, .inl ⟨rfl, rfl⟩⟩
  · split at h
    · cases h
    · cases h
      exact ⟨by decide, .inr ⟨by decide, rfl⟩⟩
  · cases h

theorem Counts.readFlags {total : Int} (start : List Char) (fuel : Nat) {clear : Bool}
    {cursor : Cursor} (h : Counts total cursor)
    (hflags : clear = true ∨ (cursor.rest.dropWhile isOtherFlag).head? ≠ some 'x') :
    Yields (Continues total) (readFlags? start fuel clear cursor) := by
  induction fuel generalizing clear cursor with
  | zero => exact .none
  | succ fuel ih =>
      unfold readFlags?
      refine .of_bind fun next hnext => ?_
      cases h.skip_eq.symm.trans hnext
      dsimp only
      split
      · exact .none
      · rename_i rest hrest
        split
        · exact .none
        · exact .some (h.moveTo hrest (by decide))
      · rename_i rest hrest
        split
        · exact .none
        · exact .some (h.moveTo hrest (by decide))
      · rename_i rest hrest
        split
        · exact .none
        · exact ih (h.moveTo hrest (by decide)) (.inl rfl)
      · rename_i c rest _ _ _ hrest
        refine .of_bind fun flags hupdate => ?_
        obtain ⟨hplain, hcases⟩ := update?_cases hupdate
        have hmoved := h.moveTo hrest hplain
        -- The flag that has blanks skipped is only met where flags are cleared.
        rcases hcases with ⟨rfl, hspaced⟩ | ⟨hother, hspaced⟩
        · rcases hflags with rfl | hhead
          · exact ih ⟨hspaced, hmoved.tallies⟩ (.inl rfl)
          · rw [hrest] at hhead
            exact absurd rfl hhead
        · refine ih ⟨hspaced.trans h.spaced, hmoved.tallies⟩ (hflags.imp id fun hhead => ?_)
          rwa [hrest, List.dropWhile_cons_of_pos hother] at hhead

/-- Before the parenthesis that was read last, the groups opened and the text weigh so much
together. -/
abbrev CountsBefore (total : Int) (cursor : Cursor) : Prop :=
  Counts total (cursor.moveTo ('(' :: cursor.rest))

namespace CountsBefore

variable {total : Int} {cursor : Cursor}

theorem skip_eq (h : CountsBefore total cursor) : cursor.skip = some cursor := by
  have hskip : skipFrom false .nothing cursor.rest = some cursor.rest := by
    by_cases hhead : cursor.rest.head? = some '?'
    · obtain ⟨rest, hrest⟩ := List.head?_eq_some_iff.1 hhead
      rw [hrest]
      rfl
    · exact (h.tallies.of_opening hhead).skipFrom_eq
  have hspaced : cursor.flags.spaced = false := h.spaced
  rw [Cursor.skip, hspaced, hskip]
  rfl

/-- A mark of the given weight is passed, and as many groups are opened. -/
theorem marked (h : CountsBefore total cursor) {rest after : List Char}
    (hrest : cursor.rest = '?' :: rest) (hpast : Past rest after) {next : Cursor}
    (hflags : next.flags = cursor.flags) (hnext : next.rest = after)
    (hgroups : (next.groups : Int) = cursor.groups + weight ('(' :: '?' :: rest)) :
    Counts total next := by
  have htallies : Tallies ('(' :: '?' :: rest) (total - cursor.groups) := hrest ▸ h.tallies
  refine ⟨(congrArg Flags.spaced hflags).trans h.spaced, ?_⟩
  have hmore := htallies.of_marked.2.2.past hpast
  rw [hnext, hgroups, ← Int.sub_sub]
  exact hmore

theorem openNamed (h : CountsBefore total cursor) {rest name : List Char}
    (hrest : cursor.rest = '?' :: rest) (hname : Past rest name)
    (hweight : weight ('(' :: '?' :: rest) = 1) :
    Yields (Continues total) (openNamed? cursor name) := by
  refine (readName?_past false (by decide) name).bind ?_
  rintro ⟨_, after⟩ hpast
  refine .some ?_
  exact h.marked hrest (hname.trans hpast) rfl rfl (by rw [hweight]; rfl)

theorem unnumbered (h : CountsBefore total cursor) {rest after : List Char}
    (hrest : cursor.rest = '?' :: rest) (hpast : Past rest after)
    (hweight : weight ('(' :: '?' :: rest) = 0) : Counts total (cursor.moveTo after) :=
  h.marked hrest hpast rfl rfl (by rw [hweight, Int.add_zero]; rfl)

theorem readOpening (h : CountsBefore total cursor) :
    Yields (Continues total) (readOpening? cursor) := by
  unfold readOpening?
  split
  · rename_i rest hrest
    exact .some (h.unnumbered hrest (.cons (by decide) (.refl rest)) rfl)
  · rename_i rest hrest
    exact .some (h.unnumbered hrest (.cons (by decide) (.refl rest)) rfl)
  · rename_i rest hrest
    exact .some (h.unnumbered hrest (.cons (by decide) (.cons (by decide) (.refl rest))) rfl)
  · rename_i rest hrest
    exact .some (h.unnumbered hrest (.cons (by decide) (.cons (by decide) (.refl rest))) rfl)
  · rename_i rest hpositive hnegative hrest
    cases rest with
    | nil => exact .none
    | cons c rest =>
        refine h.openNamed hrest (.cons (by decide) (.refl (c :: rest))) (weight_named ?_ ?_ rest)
        · rintro rfl
          exact hpositive rest rfl
        · rintro rfl
          exact hnegative rest rfl
  · rename_i rest hrest
    exact h.openNamed hrest (.cons (by decide) (.cons (by decide) (.refl rest))) rfl
  · rename_i rest hrest
    exact .some (h.unnumbered hrest (.cons (by decide) (.refl rest)) rfl)
  · exact .none
  · rename_i hquestion
    refine .some ⟨h.spaced, ?_⟩
    have hmore := h.tallies.of_opening (head?_ne_of_forall hquestion)
    rwa [Int.sub_sub] at hmore

/-- A mark that is none of the openings is a list of flags, or nothing can be read. -/
theorem readFlags (h : CountsBefore total cursor) (hopening : readOpening? cursor = .none)
    (htest : ∀ rest, cursor.rest ≠ '?' :: '(' :: rest) (start : List Char) (fuel : Nat) :
    Yields (Continues total)
      (readFlags? start (fuel + 1) false (cursor.moveTo (cursor.rest.drop 1))) := by
  have hquestion : ∃ rest, cursor.rest = '?' :: rest := by
    unfold readOpening? at hopening
    split at hopening
    · cases hopening
    · cases hopening
    · cases hopening
    · cases hopening
    · exact ⟨_, by assumption⟩
    · exact ⟨_, by assumption⟩
    · cases hopening
    · exact ⟨_, by assumption⟩
    · cases hopening
  obtain ⟨rest, hrest⟩ := hquestion
  have hspaced : cursor.flags.spaced = false := h.spaced
  have htallies : Tallies ('(' :: '?' :: rest) (total - cursor.groups) := hrest ▸ h.tallies
  rw [hrest, List.drop_one, List.tail_cons]
  by_cases hnamed : rest.head? = some '<' ∨ rest.head? = some 'P'
  · -- Neither letter is a flag.
    have hnone : readFlags? start (fuel + 1) false (cursor.moveTo rest) = Option.none := by
      rcases hnamed with hhead | hhead
      · obtain ⟨others, rfl⟩ := List.head?_eq_some_iff.1 hhead
        simp [readFlags?, Cursor.skip, Cursor.moveTo, hspaced, skipFrom, Flags.update?]
      · obtain ⟨others, rfl⟩ := List.head?_eq_some_iff.1 hhead
        simp [readFlags?, Cursor.skip, Cursor.moveTo, hspaced, skipFrom, Flags.update?]
    rw [hnone]
    exact .none
  · rw [not_or] at hnamed
    have hweight : weight ('(' :: '?' :: rest) = 0 := by
      refine weight_marked hnamed.1 hnamed.2 (head?_ne_of_forall ?_)
      rintro others rfl
      exact htest others hrest
    exact (h.unnumbered hrest (.refl rest) hweight).readFlags start (fuel + 1)
      (.inr htallies.of_marked.2.1)

end CountsBefore

/-! ### The readers of patterns -/

/-- Nothing is read as a choice that starts with a question mark. -/
theorem readChoice_question {depth fuel : Nat} {cursor : Cursor} {rest : List Char}
    (hspaced : cursor.flags.spaced = false) (hrest : cursor.rest = '?' :: rest) :
    readChoice depth fuel cursor = none := by
  have hskip : cursor.skip = some cursor := by
    rw [Cursor.skip, hspaced, hrest]
    exact congrArg some (by rw [Cursor.moveTo, ← hrest])
  have hpiece : ∀ fuel, readPiece depth fuel cursor = none := by
    intro fuel
    cases fuel with
    | zero => rw [readPiece]
    | succ fuel =>
        rw [readPiece]
        cases fuel with
        | zero =>
            rw [readAtom]
            rfl
        | succ fuel =>
            rw [readAtom, hskip]
            simp only [Option.bind_eq_bind, Option.bind_some, hrest]
            simp [hskip, readRepeat?, hrest, finishRepeat?, Node.isRepeatable]
  cases fuel with
  | zero => rw [readChoice]
  | succ fuel =>
      rw [readChoice]
      cases fuel with
      | zero =>
          rw [readBranch]
          rfl
      | succ fuel =>
          rw [readBranch, hrest, hpiece]
          rfl

theorem readConditional_question {depth fuel : Nat} {cursor : Cursor} {rest : List Char}
    (hspaced : cursor.flags.spaced = false) (hrest : cursor.rest = '?' :: rest) :
    readConditional depth fuel cursor = none := by
  have htested : readTestedRef? cursor = some none := by
    rw [readTestedRef?, hrest]
    rfl
  cases fuel with
  | zero => rw [readConditional]
  | succ fuel =>
      rw [readConditional, htested, readChoice_question hspaced hrest]
      rfl

/-- Every reader of this fuel continues with a cursor that weighs the same. -/
structure Keeps (fuel : Nat) : Prop where
  choice : ∀ {total depth cursor}, Counts total cursor →
    Yields (Continues total) (readChoice depth fuel cursor)
  branches : ∀ {total depth cursor}, Counts total cursor →
    Yields (Continues total) (readBranches depth fuel cursor)
  branch : ∀ {total depth pieces cursor}, Counts total cursor →
    Yields (Continues total) (readBranch depth fuel pieces cursor)
  piece : ∀ {total depth cursor}, Counts total cursor →
    Yields (Continues total) (readPiece depth fuel cursor)
  atom : ∀ {total depth cursor}, Counts total cursor →
    Yields (Continues total) (readAtom depth fuel cursor)
  group : ∀ {total depth cursor}, CountsBefore total cursor →
    Yields (Continues total) (readGroup depth fuel cursor)
  conditional : ∀ {total depth cursor}, Counts total cursor →
    Yields (Continues total) (readConditional depth fuel cursor)

namespace Keeps

variable {total : Int} {depth fuel : Nat} {cursor : Cursor}

theorem choice_succ (hkeeps : Keeps fuel) (h : Counts total cursor) :
    Yields (Continues total) (readChoice depth (fuel + 1) cursor) := by
  rw [readChoice]
  refine (hkeeps.branch h).bind ?_
  rintro ⟨first, cursor⟩ h
  refine (Counts.skip h).bind fun cursor h => ?_
  dsimp only
  split
  · refine (hkeeps.branches h).bind ?_
    rintro ⟨others, cursor⟩ h
    exact .some h
  · split
    · exact .none
    · exact .some h

theorem branches_succ (hkeeps : Keeps fuel) (h : Counts total cursor) :
    Yields (Continues total) (readBranches depth (fuel + 1) cursor) := by
  rw [readBranches]
  split
  · rename_i rest hrest
    refine (hkeeps.branch (h.moveTo hrest (by decide))).bind ?_
    rintro ⟨branch, cursor⟩ h
    refine (Counts.skip h).bind fun cursor h => ?_
    refine (hkeeps.branches h).bind ?_
    rintro ⟨others, cursor⟩ h
    exact .some h
  · exact .some h

theorem branch_succ (hkeeps : Keeps fuel) {pieces : List Node} (h : Counts total cursor) :
    Yields (Continues total) (readBranch depth (fuel + 1) pieces cursor) := by
  rw [readBranch]
  split
  · exact .some h
  · refine (hkeeps.piece h).bind ?_
    rintro ⟨piece, next⟩ hnext
    dsimp only
    split
    · exact .some h
    · exact hkeeps.branch hnext

theorem piece_succ (hkeeps : Keeps fuel) (h : Counts total cursor) :
    Yields (Continues total) (readPiece depth (fuel + 1) cursor) := by
  rw [readPiece]
  refine (hkeeps.atom h).bind ?_
  rintro ⟨atom, cursor⟩ h
  refine (Counts.skip h).bind fun cursor h => ?_
  split
  · rename_i bounds next hrepeat
    exact Counts.finishRepeat (h.readRepeat _ hrepeat) atom bounds
  · exact .some h

theorem atom_succ (hkeeps : Keeps fuel) (h : Counts total cursor) :
    Yields (Continues total) (readAtom depth (fuel + 1) cursor) := by
  rw [readAtom]
  refine h.skip.bind fun cursor h => ?_
  dsimp only
  split
  · exact .some h
  · rename_i rest hrest
    exact .some (h.moveTo hrest (by decide))
  · rename_i rest hrest
    exact .some (h.moveTo hrest (by decide))
  · rename_i rest hrest
    exact .some (h.moveTo hrest (by decide))
  · rename_i rest hrest
    refine hkeeps.group ⟨h.spaced, ?_⟩
    exact hrest ▸ h.tallies
  · rename_i rest hrest
    cases rest with
    | nil => exact .none
    | cons c rest =>
        have htallies : Tallies ('\\' :: c :: rest) (total - cursor.groups) := hrest ▸ h.tallies
        obtain ⟨hplain, hmore⟩ := htallies.of_escape
        have hescape : Counts total ((cursor.moveTo (c :: rest)).moveTo rest) := ⟨h.spaced, hmore⟩
        exact (readEscape?_movedPast false rfl hplain).mono fun _ hmoved =>
          hescape.movedPast hmoved
  · rename_i rest hrest
    have htallies : Tallies ('[' :: rest) (total - cursor.groups) := hrest ▸ h.tallies
    obtain ⟨after, hafter, hmore⟩ := htallies.of_bracket
    have hclass : Counts total (cursor.moveTo after) := ⟨h.spaced, hmore⟩
    refine (readBracket?_movedTo hafter).bind ?_
    rintro ⟨text, next⟩ hmoved
    refine .some (hclass.movedPast ?_)
    exact ⟨hmoved.flags, hmoved.groups, hmoved.rest ▸ .refl _⟩
  · rename_i c rest _ _ _ hopening hescape hbracket hrest
    split
    · exact .some h
    · exact .some (h.moveTo hrest (isPlain_iff.2 ⟨hbracket, hopening, hescape⟩))

theorem group_succ (hkeeps : Keeps fuel) (h : CountsBefore total cursor) :
    Yields (Continues total) (readGroup depth (fuel + 1) cursor) := by
  rw [readGroup]
  split
  · exact .none
  rw [h.skip_eq]
  simp only [Option.bind_eq_bind, Option.bind_some]
  split
  · rename_i rest hrest
    have hname := h.unnumbered hrest (.cons (by decide) (.cons (by decide) (.refl rest))) rfl
    refine (hname.readNamedRef false (by decide)).bind ?_
    rintro ⟨index, next⟩ hnext
    exact .some hnext
  · rename_i rest hrest
    by_cases hhead : rest.head? = some '?'
    · -- Before a question mark the second parenthesis is no bare one, but nothing is read there.
      obtain ⟨others, hothers⟩ := List.head?_eq_some_iff.1 hhead
      have hspaced : (cursor.moveTo rest).flags.spaced = false := h.spaced
      rw [readConditional_question hspaced hothers]
      exact .none
    · have htallies : Tallies ('(' :: '?' :: '(' :: rest) (total - cursor.groups) :=
        hrest ▸ h.tallies
      have hmore := htallies.of_marked.2.2.of_opening hhead
      have hweight : weight ('(' :: '?' :: '(' :: rest) = -1 := rfl
      rw [hweight, Int.sub_neg, Int.add_sub_cancel] at hmore
      exact hkeeps.conditional ⟨h.spaced, hmore⟩
  · rename_i hnotName hnotTest
    split
    · rename_i opening next hopening
      refine (hkeeps.choice (h.readOpening _ hopening)).bind ?_
      rintro ⟨body, next⟩ h
      exact (Counts.readClose h).bind fun next h => .some h
    · rename_i hopening
      have hflags := h.readFlags hopening hnotTest (cursor.rest.drop 1)
        (cursor.rest.drop 1).length
      refine hflags.bind ?_
      rintro ⟨ending, next⟩ hnext
      dsimp only
      split
      · exact .some hnext
      · refine (hkeeps.choice hnext).bind ?_
        rintro ⟨body, next⟩ h'
        refine (Counts.readClose h').bind fun next h' => .some ?_
        exact ⟨h.spaced, h'.tallies⟩

theorem conditional_succ (hkeeps : Keeps fuel) (h : Counts total cursor) :
    Yields (Continues total) (readConditional depth (fuel + 1) cursor) := by
  rw [readConditional]
  refine h.readTestedRef.bind fun found hfound => ?_
  extract_lets +lift afterTest
  have htest : ∀ found, Continues total found → Yields (Continues total) (afterTest found) := by
    rintro ⟨test, cursor⟩ h
    refine (Counts.readClose h).bind fun cursor h => ?_
    refine (hkeeps.choice h).bind ?_
    rintro ⟨body, next⟩ h
    refine (Counts.readClose h).bind fun last hlast => ?_
    split
    · split
      · exact .some hlast
      · exact .none
    · exact .some hlast
  split
  · rename_i index next
    exact htest (_, next) (hfound _ rfl)
  · exact (hkeeps.choice h).bind htest

end Keeps

/-- **Reading keeps what is counted**: the groups opened so far and the weight of what is still to
be read make up the same sum. -/
theorem keeps (fuel : Nat) : Keeps fuel := by
  induction fuel with
  | zero =>
      refine ⟨fun _ => ?_, fun _ => ?_, fun _ => ?_, fun _ => ?_, fun _ => ?_, fun _ => ?_,
        fun _ => ?_⟩
      · rw [readChoice]
        exact .none
      · rw [readBranches]
        exact .none
      · rw [readBranch]
        exact .none
      · rw [readPiece]
        exact .none
      · rw [readAtom]
        exact .none
      · rw [readGroup]
        exact .none
      · rw [readConditional]
        exact .none
  | succ fuel ih =>
      exact ⟨ih.choice_succ, ih.branches_succ, ih.branch_succ, ih.piece_succ, ih.atom_succ,
        ih.group_succ, ih.conditional_succ⟩

/-- A whole pattern that can be read has as many groups as its text weighs. -/
theorem parse?_groups {text : String} {total : Int} (h : Tallies text.toList total) :
    Yields (fun parsed => (parsed.groups : Int) = total) (parse? text) := by
  unfold parse?
  have hstart : Counts total { rest := text.toList, size := text.utf8ByteSize } :=
    ⟨rfl, by simpa using h⟩
  refine ((keeps _).choice hstart).bind ?_
  rintro ⟨node, cursor⟩ hend
  dsimp only
  split
  · rename_i hrest
    rw [Bool.and_eq_true, List.isEmpty_iff] at hrest
    have htallies := Counts.tallies hend
    rw [hrest.1] at htallies
    exact .some (Int.sub_eq_zero.1 htallies.eq_zero).symm
  · exact .none

/-- The flags that a pattern is compiled with open no group. -/
theorem tallies_flags (ci : Bool) {source : String} {n : Int} (h : Tallies source.toList n) :
    Tallies (patternFlags ci ++ source).toList n := by
  have hflags : ∀ {flags}, (∀ c ∈ flags, isPlain c = true) →
      ordinaryStart ('(' :: '?' :: (flags ++ source.toList)) = true →
      weight ('(' :: '?' :: (flags ++ source.toList)) = 0 →
      Tallies ('(' :: '?' :: (flags ++ source.toList)) n := by
    intro flags hplain hordinary hweight
    have htext := Tallies.cons .marked hordinary ((Tallies.append_plain_iff hplain).2 h)
    rwa [hweight, Int.zero_add] at htext
  cases ci with
  | false =>
      have htext := @hflags ['m', ')'] (by simp [isPlain]) rfl rfl
      simpa [patternFlags] using htext
  | true =>
      have htext := @hflags ['m', 'i', ')'] (by simp [isPlain]) rfl rfl
      simpa [patternFlags] using htext

theorem exists_parse_of_compilePattern {ci : Bool} {source : String} {t : Pattern}
    (h : compilePattern ci source = .ok t) : ∃ parsed, parse? t.text = some parsed := by
  rw [compilePattern_text h]
  unfold compilePattern at h
  split at h
  · rename_i found hfound
    obtain ⟨engine, hengine, -⟩ := Option.map_eq_some_iff.1 hfound
    obtain ⟨parsed, hparsed, -⟩ := Option.bind_eq_some_iff.1 hengine
    exact ⟨parsed, hparsed⟩
  · cases h

/-- **Which groups are counted.** In an ordinary pattern that compiles, the parentheses counted when
patterns are joined are the groups of the pattern, without those that have a name, and one more for
every conditional. So where patterns have neither names nor conditionals, the references of a
pattern after them are raised by the true number of groups before it. -/
theorem counted_groups_of_ordinary (ci : Bool) :
    (∀ source t, compilePattern ci source = .ok t → Ordinary source →
      ∃ parsed, parse? t.text = some parsed ∧
        groupCount source + namedCount source = parsed.groups + testCount source) ∧
    ∀ sources parsed, List.Forall₂ (fun source (p : Parsed) => Ordinary source ∧
          namedCount source = 0 ∧ testCount source = 0 ∧
          ∃ t, compilePattern ci source = .ok t ∧ parse? t.text = some p) sources parsed →
      ∀ p after, shiftAll 0 (sources ++ p :: after) = shiftAll 0 sources ++
        shiftReferences (parsed.map Parsed.groups).sum p ::
          shiftAll ((parsed.map Parsed.groups).sum + groupCount p) after := by
  have hcounts : ∀ source t, compilePattern ci source = .ok t → Ordinary source →
      ∃ parsed, parse? t.text = some parsed ∧
        groupCount source + namedCount source = parsed.groups + testCount source := by
    intro source t hcompile hordinary
    obtain ⟨parsed, hparsed⟩ := exists_parse_of_compilePattern hcompile
    have htallies := tallies_flags ci hordinary.tallies
    rw [← compilePattern_text hcompile] at htallies
    have hgroups := parse?_groups htallies _ hparsed
    exact ⟨parsed, hparsed, by omega⟩
  refine ⟨hcounts, fun sources parsed hall p after => ?_⟩
  have htotal : groupTotal sources = (parsed.map Parsed.groups).sum := by
    induction hall with
    | nil => rfl
    | cons hfirst _ ih =>
        obtain ⟨hordinary, hnamed, htests, t, hcompile, hparsed⟩ := hfirst
        obtain ⟨found, hfound, hcount⟩ := hcounts _ _ hcompile hordinary
        cases hparsed.symm.trans hfound
        rw [groupTotal_cons, List.map_cons, List.sum_cons, ih]
        omega
  rw [shiftAll_append, Nat.zero_add, htotal, shiftAll]

/-- A conditional, and a class with a class in it: the parenthesis of the test is counted, and the
reference in a pattern after the other one is raised by its only group. -/
theorem counted_groups_of_ordinary_sample :
    (∃ t parsed, compilePattern false "(a)?[[x]](?(1)d|e)" = .ok t ∧
      parse? t.text = some parsed ∧ parsed.groups = 1 ∧ testCount "(a)?[[x]](?(1)d|e)" = 1 ∧
      groupCount "(a)?[[x]](?(1)d|e)" = 2) ∧
    shiftAll 0 ["(a)[[x]]", "(b)\\1"] =
      shiftAll 0 ["(a)[[x]]"] ++ [shiftReferences 1 "(b)\\1"] := by
  obtain ⟨hcounts, hoffset⟩ := counted_groups_of_ordinary false
  obtain ⟨t, ht, -⟩ := exists_of_any (show (compilePattern false
    "(a)?[[x]](?(1)d|e)").toOption.any (fun _ => true) = true by decide +kernel)
  obtain ⟨u, hu, huGroups⟩ := exists_of_any (show (compilePattern false
    "(a)[[x]]").toOption.any (fun u => (parse? u.text).any fun p => p.groups == 1) = true by
      decide +kernel)
  obtain ⟨parsed, hparsed, hcount⟩ := hcounts _ t ht (by decide +kernel)
  obtain ⟨one, hone, honeGroups⟩ := (Option.any_eq_true _ _).1 huGroups
  have hnamed : namedCount "(a)?[[x]](?(1)d|e)" = 0 := by decide +kernel
  have htests : testCount "(a)?[[x]](?(1)d|e)" = 1 := by decide +kernel
  have hgroups : groupCount "(a)?[[x]](?(1)d|e)" = 2 := by decide +kernel
  refine ⟨⟨t, parsed, ht, hparsed, by omega, htests, hgroups⟩, ?_⟩
  have hshift := hoffset ["(a)[[x]]"] [one] (.cons ⟨by decide +kernel, by decide +kernel,
    by decide +kernel, u, hu, hone⟩ .nil) "(b)\\1" []
  rw [List.map_singleton, List.sum_singleton, eq_of_beq honeGroups] at hshift
  exact hshift

/-- A bracket that comes first in a class does not close it, but it is taken to, so a parenthesis in
the class is counted as a group, and the reference of the pattern after it points at a group that
does not exist. -/
theorem class_parenthesis_counted :
    ∃ t parsed, compilePattern false "[]()]" = .ok t ∧ parse? t.text = some parsed ∧
      namedCount "[]()]" = 0 ∧ parsed.groups = 0 ∧ groupCount "[]()]" = 1 ∧
      compose ["[]()]", "(b)\\1"] "|" = "[]()]|(b)\\2" := by
  obtain ⟨t, ht, -⟩ := exists_of_any (show (compilePattern false "[]()]").toOption.any
    (fun _ => true) = true by cbv)
  have htext : t.text = "(?m)[]()]" := compilePattern_text ht
  obtain ⟨parsed, hparsed, hgroups⟩ := (Option.any_eq_true _ _).1 (show (parse? "(?m)[]()]").any
    (fun p => p.groups == 0) = true by decide +kernel)
  exact ⟨t, parsed, ht, htext ▸ hparsed, by decide +kernel, eq_of_beq hgroups, by decide +kernel,
    by decide +kernel⟩

end LexicalModes
