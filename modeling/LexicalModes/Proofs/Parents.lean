import LexicalModes.Proofs.Frames
import LexicalModes.Proofs.Inheritance

/-!
The modes that a scan finds around a mode are those it was compiled inside. A mode that ends with
its parent is compiled against one mode (`CompiledGrammar.IsParent`), and during a scan it is opened
only inside that mode or inside itself, unless it is a variant or follows another mode. So the ends
that are joined in its end sources all belong to frames that are looked at when a lexeme may end it
(`Scan.walk`).
-/

namespace LexicalModes

open Pattern

/-- No mode that ends with its parent comes from variants, and none follows another mode. -/
def Grammar.ParentsFixed (g : Grammar) : Prop :=
  (∀ mode ∈ g.modes.toList, ∀ variant ∈ mode.variants,
    mode.flags.endsWithParent = false ∧ variant.flags.endsWithParent = false) ∧
  ∀ mode ∈ g.modes.toList, ∀ declared ∈ mode :: mode.variants, ∀ id ∈ declared.starts,
    ∀ following ∈ g.get? id, following.flags.endsWithParent = false

instance (g : Grammar) : Decidable g.ParentsFixed := inferInstanceAs (Decidable (_ ∧ _))

/-- The mode that another one was compiled against: of all modes it alone contains the other one,
which may also contain itself, and the other one follows none. The other one has its ends. -/
structure CompiledGrammar.IsParent (compiled : CompiledGrammar) (parent index : ModeIndex) :
    Prop where
  contains : index ∈ (compiled.mode parent).contains
  ne : parent ≠ index
  only : ∀ other < compiled.size, index ∈ (compiled.mode other).contains →
    other = parent ∨ other = index
  follows : ∀ other < compiled.size, (compiled.mode other).starts ≠ some index
  inherits : compiled.InheritsEnds index parent

/-! ### Parents in a compiled grammar -/

theorem Grammar.mem_of_get? {g : Grammar} {id : ModeId} {mode : Mode} (h : g.get? id = some mode) :
    mode ∈ g.modes.toList :=
  Array.mem_toList_iff.2 (Array.mem_of_getElem? h)

section

variable {g : Grammar} {ci : Bool} {compiled : CompiledGrammar} {origins : List Origin}
  {index : ModeIndex} {p q : Origin}

/-- A variant does not end with its parent. -/
theorem Grammar.ParentsFixed.variant (h : g.ParentsFixed) {id : ModeId} {place : Nat} {mode : Mode}
    (hsource : Origin.source g (.variant id place) = some mode) :
    mode.flags.endsWithParent = false := by
  obtain ⟨base, hbase, hsource⟩ := Option.bind_eq_some_iff.1 hsource
  obtain ⟨variant, hvariant, hsource⟩ := Option.bind_eq_some_iff.1 hsource
  cases hsource
  obtain ⟨hfirst, hsecond⟩ :=
    h.1 base (Grammar.mem_of_get? hbase) variant (List.mem_of_getElem? hvariant)
  change (base.flags.endsWithParent || variant.flags.endsWithParent) = false
  rw [hfirst, hsecond]
  rfl

/-- A mode that follows another does not end with its parent. -/
theorem Grammar.ParentsFixed.starts (h : g.ParentsFixed) {mode following : Mode} {id : ModeId}
    (hsource : p.source g = some mode) (hstarts : mode.starts = some id)
    (hfollowing : g.get? id = some following) : following.flags.endsWithParent = false := by
  have hdeclared : ∀ base ∈ g.modes.toList, ∀ declared ∈ base :: base.variants,
      declared.starts = some id → following.flags.endsWithParent = false :=
    fun base hbase declared hdeclared heq =>
      h.2 base hbase declared hdeclared id heq following hfollowing
  rcases Origin.source_cases hsource with ⟨_, hmode⟩ | ⟨_, base, variant, hvariant, hbase, rfl⟩
  · exact hdeclared mode (Grammar.mem_of_get? hmode) mode List.mem_cons_self hstarts
  · have hbase := Grammar.mem_of_get? hbase
    rcases Option.or_eq_some_iff.1 hstarts with hown | ⟨-, hown⟩
    · exact hdeclared base hbase variant (List.mem_cons_of_mem base hvariant) hown
    · exact hdeclared base hbase base List.mem_cons_self hown

namespace Placed

variable (h : Placed g ci [] (compiled.modes.map Slot.compiled) origins)

include h

theorem endsWithParent_of_starts (hfixed : g.ParentsFixed) {following : ModeIndex}
    (hstarts : (compiled.mode index).starts = some following) :
    (compiled.mode following).flags.endsWithParent = false := by
  obtain ⟨p, hp⟩ := h.exists_origin (CompiledGrammar.lt_size_of_starts hstarts)
  obtain ⟨mode, id, hsource, hid, hq⟩ := h.exists_origin_of_starts hp hstarts
  obtain ⟨target, htarget⟩ := h.exists_source (List.mem_of_getElem? hq)
  rw [((h.started_mode hq).traitsOf htarget).flags]
  exact hfixed.starts hsource hid htarget

/-- **The parent is the mode around.** A mode that ends with its parent and is inside another was
compiled against that one. -/
theorem isParent_of_mem_contains (hfixed : g.ParentsFixed) {child : ModeIndex}
    (hchild : child ∈ (compiled.mode index).contains) (hne : child ≠ index)
    (hparent : (compiled.mode child).flags.endsWithParent = true) :
    compiled.IsParent index child := by
  obtain ⟨p, hp⟩ := h.exists_origin (CompiledGrammar.lt_size_of_mem_contains hchild)
  obtain ⟨q, hq, hmem⟩ := h.exists_origin_of_mem_contains hp hchild
  -- Of what can be inside a mode, nothing but a copy ends with its parent.
  obtain ⟨place, rfl⟩ : ∃ place, q = .copy p place := by
    rcases Origin.cases_of_mem_contents hmem with rfl | hcopy | ⟨_, _, rfl⟩ | ⟨id, hid, hplain⟩
    · exact absurd (index_unique h.nodup hq hp) hne
    · exact hcopy
    · obtain ⟨mode, hsource⟩ := h.exists_source (List.mem_of_getElem? hq)
      rw [((h.started_mode hq).traitsOf hsource).flags, hfixed.variant hsource] at hparent
      cases hparent
    · rw [h.endsWithParent_of_declared hq hid hplain] at hparent
      cases hparent
  have honly : ∀ {other r}, origins[other]? = some r → Origin.copy p place ∈ r.contents g →
      other = index ∨ other = child := by
    intro other r hr hcontents
    rcases Origin.owner_of_copy_mem_contents hcontents with rfl | rfl
    · exact .inl (index_unique h.nodup hr hp)
    · exact .inr (index_unique h.nodup hr hq)
  refine ⟨hchild, Ne.symm hne, ?_, ?_, ?_⟩
  · intro other hother hcontains
    obtain ⟨r, hr⟩ := h.exists_origin hother
    exact honly hr ((h.mem_contains_iff hr hq).1 hcontains)
  · intro other hother hstarts
    obtain ⟨r, hr⟩ := h.exists_origin hother
    obtain ⟨-, id, -, -, hfollowing⟩ := h.exists_origin_of_starts hr hstarts
    cases hq.symm.trans hfollowing
  · obtain ⟨parent, r, hr, hrne, hcontents, hinherits⟩ :=
      h.exists_parent hq (fun id heq => by cases heq) hparent
    rcases honly hr hcontents with rfl | rfl
    · exact hinherits
    · exact absurd (Option.some.inj (hr.symm.trans hq)) hrne

end Placed

end

/-! ### The frames around a frame -/

namespace Scan

variable {g : CompiledGrammar}

variable (g) in
/-- A frame of a mode that ends with its parent stands on one of the same mode or of its parent. -/
def Agrees : List Frame → Prop
  | [] => True
  | frame :: below =>
    ((g.mode frame.mode).flags.endsWithParent = true →
      (Stack.mk below).current.mode = frame.mode ∨
        g.IsParent (Stack.mk below).current.mode frame.mode) ∧
    Agrees below

theorem Agrees.suffix {frames outer : List Frame} (hsuffix : outer <:+ frames)
    (h : Agrees g frames) : Agrees g outer := by
  obtain ⟨inner, rfl⟩ := hsuffix
  induction inner with
  | nil => exact h
  | cons frame rest ih => exact ih h.2

theorem Agrees.step {grammar : Grammar} {ci : Bool} {origins : List Origin}
    (hplaced : Placed grammar ci [] (g.modes.map Slot.compiled) origins)
    (hfixed : grammar.ParentsFixed) {frames next : List Frame} (hstep : FramesStep g frames next)
    (h : Agrees g frames) : Agrees g next := by
  cases hstep with
  | same => exact h
  | @opened child closer hchild hbegins =>
      refine ⟨fun hparent => ?_, h⟩
      by_cases hself : child = (Stack.mk frames).current.mode
      · exact .inl hself.symm
      · exact .inr (hplaced.isParent_of_mem_contains hfixed hchild hself hparent)
  | @closed inner below frame hframes =>
      subst hframes
      have hbelow : Agrees g below := h.suffix ⟨inner ++ [frame], by simp⟩
      rw [followers]
      cases hstarts : (g.mode frame.mode).starts with
      | none => exact hbelow
      | some following =>
          refine ⟨fun hparent => ?_, hbelow⟩
          rw [hplaced.endsWithParent_of_starts hfixed hstarts] at hparent
          cases hparent

variable (g) in
/-- The frames that are looked at when a lexeme may end a mode: those from the innermost outward, up
to the first whose mode does not end with its parent. -/
def walk : List Frame → List Frame
  | [] => []
  | frame :: below =>
    frame :: if (g.mode frame.mode).flags.endsWithParent then walk below else []

/-- All frames of the walk are looked at before a lexeme is found to end none. -/
theorem ending?_eq_none_iff {lexeme : String} {frames : List Frame} :
    ending? g lexeme frames = .ok none ↔
      ∀ frame ∈ walk g frames, endsFrame g lexeme frame = .ok false := by
  induction frames with
  | nil => simp [ending?, walk]
  | cons frame below ih =>
      have hrest : (if (g.mode frame.mode).flags.endsWithParent then ending? g lexeme below
            else pure none) = .ok none ↔
          ∀ outer ∈ if (g.mode frame.mode).flags.endsWithParent then walk g below else [],
            endsFrame g lexeme outer = .ok false := by
        by_cases hparent : (g.mode frame.mode).flags.endsWithParent = true
        · rw [if_pos hparent, if_pos hparent]
          exact ih
        · rw [if_neg hparent, if_neg hparent]
          exact iff_of_true rfl (List.forall_mem_nil _)
      rw [ending?, walk, List.forall_mem_cons, ← hrest, bind_eq_ok]
      constructor
      · rintro ⟨ends, hends, h⟩
        cases ends with
        | true => cases h
        | false => exact ⟨hends, h⟩
      · rintro ⟨hends, h⟩
        exact ⟨false, hends, h⟩

theorem walk_subset_cons {frame : Frame} {below : List Frame}
    (hparent : (g.mode frame.mode).flags.endsWithParent = true) :
    walk g below ⊆ walk g (frame :: below) := by
  intro outer houter
  rw [walk, if_pos hparent]
  exact List.mem_cons_of_mem frame houter

/-- From a mode that ends with its parent the walk comes to a frame of the parent. -/
theorem Agrees.exists_parent {frames : List Frame} {parent index : ModeIndex}
    (hroot : (g.mode CompiledGrammar.rootIndex).begins = none) (h : Agrees g frames)
    (hindex : (Stack.mk frames).current.mode = index)
    (hbegins : (g.mode index).begins.isSome = true)
    (hends : (g.mode index).flags.endsWithParent = true) (hparent : g.IsParent parent index) :
    ∃ outer, (Stack.mk outer).current.mode = parent ∧ Agrees g outer ∧
      walk g outer ⊆ walk g frames := by
  induction frames with
  | nil =>
      rw [← hindex] at hbegins
      change (g.mode CompiledGrammar.rootIndex).begins.isSome = true at hbegins
      rw [hroot] at hbegins
      cases hbegins
  | cons frame below ih =>
      change frame.mode = index at hindex
      subst hindex
      -- Below may be the same mode once more, any number of times.
      rcases h.1 hends with hself | hbelow
      · obtain ⟨outer, hmode, hagrees, hwalk⟩ := ih h.2 hself
        exact ⟨outer, hmode, hagrees, List.Subset.trans hwalk (walk_subset_cons hends)⟩
      · refine ⟨below, ?_, h.2, walk_subset_cons hends⟩
        have hlt := CompiledGrammar.lt_size_of_mem_contains hbelow.contains
        rcases hparent.only _ hlt hbelow.contains with heq | heq
        · exact heq
        · exact absurd heq hbelow.ne

/-- **The ends of the walk.** Every end that meets in the innermost mode is that of a frame of the
walk. -/
theorem Agrees.exists_of_mem_ends {grammar : Grammar} {ci : Bool} {origins : List Origin}
    (hplaced : Placed grammar ci [] (g.modes.map Slot.compiled) origins)
    (hfixed : grammar.ParentsFixed) (hroot : (g.mode CompiledGrammar.rootIndex).begins = none)
    {index : ModeIndex} {ends : List String} (hends : g.Ends index ends) {frames : List Frame}
    (h : Agrees g frames) (hindex : (Stack.mk frames).current.mode = index) {source : String}
    (hsource : source ∈ ends) :
    ∃ frame ∈ walk g frames, (g.mode frame.mode).ends.map (·.source) = some source := by
  -- The induction follows the ends from parent to parent, and the walk follows down the stack.
  induction hends generalizing frames with
  | top hbegins => cases hsource
  | @inside parent index ends hsurrounds hbegins _ ih =>
      rcases List.mem_append.1 hsource with hown | hinherited
      · cases frames with
        | nil =>
            rw [← hindex] at hbegins
            change (g.mode CompiledGrammar.rootIndex).begins.isSome = true at hbegins
            rw [hroot] at hbegins
            cases hbegins
        | cons frame below =>
            change frame.mode = index at hindex
            subst hindex
            exact ⟨frame, List.mem_cons_self, Option.mem_toList.1 hown⟩
      · by_cases hparent : (g.mode index).flags.endsWithParent = true
        · rw [if_pos hparent] at hinherited
          by_cases hself : parent = index
          · exact ih h (hindex.trans hself.symm) hinherited
          · have hisParent : g.IsParent parent index := by
              cases hsurrounds with
              | contains hcontains =>
                  exact hplaced.isParent_of_mem_contains hfixed hcontains (Ne.symm hself) hparent
              | follows _ hstarts =>
                  rw [hplaced.endsWithParent_of_starts hfixed hstarts] at hparent
                  cases hparent
            obtain ⟨outer, hmode, hagrees, hwalk⟩ :=
              h.exists_parent hroot hindex hbegins hparent hisParent
            obtain ⟨frame, hframe, heq⟩ := ih hagrees hmode hinherited
            exact ⟨frame, hwalk hframe, heq⟩
        · rw [if_neg hparent] at hinherited
          cases hinherited

end Scan

/-! ### Depths -/

theorem Stack.get?_cons (frame : Frame) (below : List Frame) (depth : Nat) :
    (Stack.mk (frame :: below)).get? depth =
      if depth = below.length + 1 then some frame else (Stack.mk below).get? depth := by
  by_cases hzero : depth = 0
  · simp [get?, hzero]
  · by_cases htop : depth = below.length + 1
    · simp [get?, Stack.depth, htop]
    · by_cases hle : depth ≤ below.length
      · have hindex : below.length + 1 - depth = (below.length - depth) + 1 := by omega
        simp [get?, Stack.depth, hzero, htop, hle, Nat.le_succ_of_le hle, hindex]
      · have hlarge : ¬depth ≤ below.length + 1 := by omega
        simp [get?, Stack.depth, hzero, htop, hle, hlarge]

theorem Stack.get?_depth (stack : Stack) : stack.get? stack.depth = some stack.current := by
  obtain ⟨frames⟩ := stack
  cases frames with
  | nil => rfl
  | cons frame below => exact (get?_cons frame below _).trans (if_pos rfl)

theorem Stack.le_depth_of_get? {stack : Stack} {depth : Nat} {frame : Frame}
    (h : stack.get? depth = some frame) : depth ≤ stack.depth := by
  by_contra hlarge
  rw [get?, if_neg (by omega), if_neg hlarge] at h
  cases h

theorem Scan.Agrees.get? {g : CompiledGrammar} {frames : List Frame} (h : Agrees g frames)
    {depth : Nat} {frame below : Frame} (hframe : (Stack.mk frames).get? (depth + 1) = some frame)
    (hbelow : (Stack.mk frames).get? depth = some below)
    (hparent : (g.mode frame.mode).flags.endsWithParent = true) :
    below.mode = frame.mode ∨ g.IsParent below.mode frame.mode := by
  induction frames with
  | nil => cases hframe
  | cons first rest ih =>
      have hle := Stack.le_depth_of_get? hframe
      rw [Stack.get?_cons] at hframe hbelow
      have hne : depth ≠ rest.length + 1 := by
        simp only [Stack.depth, List.length_cons] at hle
        omega
      rw [if_neg hne] at hbelow
      by_cases htop : depth + 1 = rest.length + 1
      · rw [if_pos htop] at hframe
        cases hframe
        rw [show depth = (Stack.mk rest).depth from Nat.succ.inj htop, Stack.get?_depth] at hbelow
        cases hbelow
        exact h.1 hparent
      · rw [if_neg htop] at hframe
        exact ih h.2 hframe hbelow

/-- **Parents and frames agree.** In a scan of a chain of calls, a frame of a mode that ends with
its parent stands on a frame of the same mode or of the one it was compiled against. So the ends
that are joined in the innermost mode's end sources are all ends of frames that are looked at before
a lexeme is found to end none. -/
theorem frames_agree_with_parents {language : Language} (hfixed : language.grammar.ParentsFixed)
    {g : CompiledGrammar} (hcompile : language.compile = .ok g) {stack : Stack}
    (hstack : g.ResumesAt stack) {ignoreIllegals : Bool} {content : String} {s : Scan}
    (hs : Scan.Inside g ignoreIllegals (Text.ofString content) (Scan.initial g stack) s) :
    (∀ depth frame below, s.stack.get? (depth + 1) = some frame →
      s.stack.get? depth = some below → (g.mode frame.mode).flags.endsWithParent = true →
      below.mode = frame.mode ∨ g.IsParent below.mode frame.mode) ∧
    (∃ ends, g.Ends s.stack.current.mode ends ∧
      (s.top g).terminatorEnd = "|".intercalate ends) ∧
    (∀ ends, g.Ends s.stack.current.mode ends → ∀ source ∈ ends,
      ∃ frame ∈ Scan.walk g s.stack.frames,
        (g.mode frame.mode).ends.map (·.source) = some source) ∧
    ∀ lexeme, Scan.ending? g lexeme s.stack.frames = .ok none ↔
      ∀ frame ∈ Scan.walk g s.stack.frames, Scan.endsFrame g lexeme frame = .ok false := by
  obtain ⟨-, origins, hplaced, -⟩ := Grammar.placed_of_compile hcompile
  obtain ⟨hroot, -⟩ := Grammar.root_of_compile hcompile
  have hagrees : Scan.Agrees g s.stack.frames :=
    hstack.frames_of_inside trivial (Scan.Agrees.step hplaced hfixed)
      Scan.Agrees.suffix hs
  refine ⟨?_, ?_, ?_, fun lexeme => Scan.ending?_eq_none_iff⟩
  · intro depth frame below hframe hbelow hparent
    exact hagrees.get? hframe hbelow hparent
  · have hlinked := Grammar.linked_of_compile hcompile
    have hrange := (hstack.inRange_of_inside hlinked hs).current hlinked
    obtain ⟨p, hp⟩ := hplaced.exists_origin hrange
    obtain ⟨ends, hends, -, hjoined⟩ := hplaced.exists_ends hp
    exact ⟨ends, hends, hjoined⟩
  · intro ends hends source hsource
    exact hagrees.exists_of_mem_ends hplaced hfixed hroot hends rfl hsource

/-- A language with a mode that ends with its parent and contains itself. -/
def sampleBlocks : Language where
  name := "blocks"
  grammar := ⟨#[{ contains := [.mode 1], lexemes := some "z" },
    { beginPattern := some "if", endPattern := some "fi", lexemes := some "z"
      contains := [.mode 2] },
    { beginPattern := some "let", endPattern := some "in", lexemes := some "z", contains := [.this]
      flags := { endsWithParent := true } }], by decide⟩

/-- The first call leaves the mode open twice inside its parent; the second one starts there. -/
theorem frames_agree_with_parents_sample :
    ∃ g result continuation, sampleBlocks.compile = .ok g ∧
      (sampleHighlighter.highlightLanguage sampleBlocks "if let let" {}).value = .ok result ∧
      result.continuation = some continuation ∧ continuation.depth = 3 ∧
      continuation.current = 2 ∧ g.IsParent 1 2 ∧
      ∃ ends, "in|fi" = "|".intercalate ends ∧ ∀ source ∈ ends,
        ∃ frame ∈ Scan.walk g continuation.stack.frames,
          (g.mode frame.mode).ends.map (·.source) = some source := by
  obtain ⟨g, hcompile, hfacts⟩ := exists_of_any (show sampleBlocks.compile.toOption.any
    (fun g => (g.mode 2).flags.endsWithParent && (g.mode 2).terminatorEnd == "in|fi") = true by
      decide +kernel)
  obtain ⟨result, hresult, hopen⟩ := exists_of_any (show (sampleHighlighter.highlightLanguage
    sampleBlocks "if let let" {}).value.toOption.any (fun result => result.continuation.any
      fun c => c.depth == 3 && c.current == 2 && (c.stack.get? 2).map (·.mode) == some 2 &&
        (c.stack.get? 1).map (·.mode) == some 1) = true by decide +kernel)
  cases hcontinuation : result.continuation with
  | none =>
      rw [hcontinuation] at hopen
      cases hopen
  | some continuation =>
      rw [hcontinuation, Option.any_some] at hopen
      simp only [Bool.and_eq_true, beq_iff_eq] at hopen hfacts
      obtain ⟨⟨⟨hdepth, hcurrent⟩, hinner⟩, houter⟩ := hopen
      obtain ⟨frame, hframe, hmode⟩ := Option.map_eq_some_iff.1 hinner
      obtain ⟨below, hbelow, hparent⟩ := Option.map_eq_some_iff.1 houter
      have hinside : Scan.Inside g false (Text.ofString "") (Scan.initial g continuation.stack)
          (Scan.initial g continuation.stack) := .between .refl
      have hcall := hresult
      rw [Highlighter.highlightLanguage, hcompile] at hcall
      have hchain : g.ResumesAt continuation.stack := .call .root rfl hcall hcontinuation
      obtain ⟨hdepths, ⟨ends, hends, hjoined⟩, hwalk, -⟩ := frames_agree_with_parents (by decide)
        hcompile hchain hinside
      refine ⟨g, result, continuation, hcompile, hresult, hcontinuation, hdepth, hcurrent, ?_,
        ends, ?_, hwalk ends hends⟩
      · have hcases := hdepths 1 frame below hframe hbelow (by rw [hmode]; exact hfacts.1)
        rw [hmode, hparent] at hcases
        exact hcases.resolve_left (by decide)
      · rw [← hjoined, ← hfacts.2, ← hcurrent]
        rfl

end LexicalModes
