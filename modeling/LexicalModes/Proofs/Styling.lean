import Mathlib.Data.List.Induction
import Mathlib.Data.List.Infix
import LexicalModes.Render
import LexicalModes.Proofs.Tokens

/-!
The class that text is written with. Rendering keeps a stack of the classes that are open, and these
are the regions among the open scopes. In well-nested tokens an open scope was opened by one token
and is closed by another one, with well-nested tokens between them (`ScopeAround`), so the top of
the stack is the class of the region around the text that begins last. Nothing is looked up by the
boundaries of a language, and what is written elsewhere is the same without them.
-/

namespace LexicalModes

/-- A scope around the token at a position: it is begun before and ended after that token, and what
is between the two boundaries is well nested. -/
structure ScopeAround (tokens : List Token) (scope : Scope) (first i last : Nat) : Prop where
  begins : tokens[first]? = some (.begins scope)
  ends : tokens[last]? = some (.ends scope)
  first_lt : first < i
  lt_last : i < last
  wellNested : WellNested ((tokens.take last).drop (first + 1))

/-- The class of the region around the token at a position that begins last, if there is one. -/
inductive InnermostClass (tokens : List Token) (i : Nat) : Option String → Prop
  | none (houtside : ∀ className first last,
      ¬ScopeAround tokens (.region className) first i last) : InnermostClass tokens i none
  | some {className : String} {first last : Nat}
      (haround : ScopeAround tokens (.region className) first i last)
      (hinnermost : ∀ other first' last',
        ScopeAround tokens (.region other) first' i last' → first' ≤ first) :
      InnermostClass tokens i (some className)

theorem InnermostClass.unique {tokens : List Token} {i : Nat} {first second : Option String}
    (hfirst : InnermostClass tokens i first) (hsecond : InnermostClass tokens i second) :
    first = second := by
  cases hfirst with
  | none houtside =>
      cases hsecond with
      | none => rfl
      | some haround => exact absurd haround (houtside _ _ _)
  | some haround hinnermost =>
      cases hsecond with
      | none houtside => exact absurd haround (houtside _ _ _)
      | some haround' hinnermost' =>
          have hstart := Nat.le_antisymm (hinnermost' _ _ _ haround) (hinnermost _ _ _ haround')
          have hbegins := haround.begins
          rw [hstart, haround'.begins] at hbegins
          cases hbegins
          rfl

/-! ### The boundaries of an open scope -/

section

variable {scope : Scope} {inside around : List Scope}

/-- An open scope was opened by a token, and what is open inside it was opened later. -/
theorem exists_opening {before : List Token}
    (h : scopesAfter? [] before = some (inside ++ scope :: around)) :
    ∃ earlier inner, before = earlier ++ .begins scope :: inner ∧
      scopesAfter? [] earlier = some around ∧ scopesAfter? [] inner = some inside := by
  induction before using List.reverseRecOn generalizing inside with
  | nil => simp at h
  | append_singleton front t ih =>
      rw [scopesAfter?_append, Option.bind_eq_some_iff] at h
      obtain ⟨opened, hfront, ht⟩ := h
      replace ht : t.scopesAfter? opened = some (inside ++ scope :: around) :=
        (Option.bind_fun_some _).symm.trans ht
      have hlonger : ∀ inside', scopesAfter? [] front = some (inside' ++ scope :: around) →
          t.scopesAfter? inside' = some inside →
          ∃ earlier inner, front ++ [t] = earlier ++ .begins scope :: inner ∧
            scopesAfter? [] earlier = some around ∧ scopesAfter? [] inner = some inside := by
        intro inside' hinside' ht'
        obtain ⟨earlier, inner, rfl, hearlier, hinner⟩ := ih hinside'
        refine ⟨earlier, inner ++ [t], by simp, hearlier, ?_⟩
        rw [scopesAfter?_append, hinner]
        simpa using ht'
      cases t with
      | text content => cases ht; exact hlonger inside hfront rfl
      | keyword className content => cases ht; exact hlonger inside hfront rfl
      | begins entered =>
          cases inside with
          | nil =>
              cases ht
              exact ⟨front, [], rfl, hfront, rfl⟩
          | cons innermost rest =>
              cases ht
              exact hlonger rest hfront rfl
      | ends left =>
          cases opened with
          | nil => cases ht
          | cons innermost rest =>
              simp only [Token.scopesAfter?] at ht
              split at ht
              case isFalse => cases ht
              case isTrue heq =>
                cases ht
                refine hlonger (innermost :: inside) hfront ?_
                simp [Token.scopesAfter?, heq]

/-- An open scope is closed by a token if nothing stays open, and what is open inside it is closed
earlier. -/
theorem exists_closing {after : List Token}
    (h : scopesAfter? (inside ++ scope :: around) after = some []) :
    ∃ inner later, after = inner ++ .ends scope :: later ∧
      scopesAfter? inside inner = some [] ∧ scopesAfter? around later = some [] := by
  induction after generalizing inside with
  | nil => simp at h
  | cons t rest ih =>
      rw [scopesAfter?_cons, Option.bind_eq_some_iff] at h
      obtain ⟨opened, ht, hrest⟩ := h
      have hlonger : ∀ inside', opened = inside' ++ scope :: around →
          t.scopesAfter? inside = some inside' →
          ∃ inner later, t :: rest = inner ++ .ends scope :: later ∧
            scopesAfter? inside inner = some [] ∧ scopesAfter? around later = some [] := by
        rintro inside' rfl ht'
        obtain ⟨inner, later, rfl, hinner, hlater⟩ := ih hrest
        refine ⟨t :: inner, later, rfl, ?_, hlater⟩
        rw [scopesAfter?_cons, ht']
        exact hinner
      cases t with
      | text content => cases ht; exact hlonger inside rfl rfl
      | keyword className content => cases ht; exact hlonger inside rfl rfl
      | begins entered => cases ht; exact hlonger (entered :: inside) rfl rfl
      | ends left =>
          cases inside with
          | nil =>
              simp only [Token.scopesAfter?, List.nil_append] at ht
              split at ht
              case isFalse => cases ht
              case isTrue heq =>
                cases ht
                cases heq
                exact ⟨[], rest, rfl, rfl, hrest⟩
          | cons innermost within =>
              simp only [Token.scopesAfter?, List.cons_append] at ht
              split at ht
              case isFalse => cases ht
              case isTrue heq =>
                cases ht
                refine hlonger within rfl ?_
                simp [Token.scopesAfter?, heq]

end

/-! ### The innermost of the open regions -/

namespace ScopeAround

variable {tokens : List Token} {scope : Scope} {first i last : Nat} {opened : List Scope}

/-- What a scope around a token is open in was open where the scope begins. -/
theorem exists_around (h : ScopeAround tokens scope first i last)
    (hopened : scopesAfter? [] (tokens.take i) = some opened) :
    ∃ inside around, opened = inside ++ scope :: around ∧
      scopesAfter? [] (tokens.take first) = some around := by
  have hbegins : (tokens.take i)[first]? = some (.begins scope) := by
    rw [List.getElem?_take_of_lt h.first_lt]
    exact h.begins
  have hsplit : tokens.take i =
      tokens.take first ++ .begins scope :: (tokens.take i).drop (first + 1) := by
    calc tokens.take i
        = (tokens.take i).take first ++ (tokens.take i).drop first :=
          (List.take_append_drop first _).symm
      _ = tokens.take first ++ .begins scope :: (tokens.take i).drop (first + 1) := by
          rw [List.take_take, Nat.min_eq_left (Nat.le_of_lt h.first_lt),
            List.drop_eq_getElem?_toList_append, hbegins]
          rfl
  -- What is between the beginning and the token is the front of something well nested.
  have hprefix : (tokens.take i).drop (first + 1) <+: (tokens.take last).drop (first + 1) :=
    (List.take_prefix_take_left (Nat.le_of_lt h.lt_last)).drop (first + 1)
  obtain ⟨rest, hrest⟩ := hprefix
  obtain ⟨inside, hinside, -⟩ : ∃ inside, scopesAfter? [] ((tokens.take i).drop (first + 1)) =
      some inside ∧ scopesAfter? inside rest = some [] := by
    rw [← Option.bind_eq_some_iff, ← scopesAfter?_append, hrest]
    exact h.wellNested
  rw [hsplit, scopesAfter?_append, Option.bind_eq_some_iff] at hopened
  obtain ⟨around, haround, hopened⟩ := hopened
  refine ⟨inside, around, ?_, haround⟩
  have hframe := scopesAfter?_frame hinside (scope :: around)
  rw [scopesAfter?_cons] at hopened
  exact Option.some.inj (hopened.symm.trans hframe)

/-- Of two scopes around a token, what the later one is open in includes the earlier one. -/
theorem exists_between {other : Scope} {first' last' : Nat}
    (h : ScopeAround tokens scope first i last) (h' : ScopeAround tokens other first' i last')
    (hlt : first < first') (hopened : scopesAfter? [] (tokens.take i) = some opened) :
    ∃ inside between around, opened = inside ++ other :: (between ++ scope :: around) ∧
      scopesAfter? [] (tokens.take first) = some around := by
  obtain ⟨inside, around', rfl, haround'⟩ := h'.exists_around hopened
  have hwithin : ScopeAround tokens scope first first' last :=
    { h with first_lt := hlt, lt_last := Nat.lt_trans h'.first_lt h.lt_last }
  obtain ⟨between, around, rfl, haround⟩ := hwithin.exists_around haround'
  exact ⟨inside, between, around, rfl, haround⟩

end ScopeAround

theorem scopeAround_append {earlier body later : List Token} {scope : Scope} {i : Nat}
    (hbody : WellNested body) (hfirst : earlier.length < i)
    (hlast : i < earlier.length + 1 + body.length) :
    ScopeAround (earlier ++ .begins scope :: (body ++ .ends scope :: later)) scope
      earlier.length i (earlier.length + 1 + body.length) where
  begins := by simp
  ends := by
    rw [Nat.add_assoc, List.getElem?_append_right (Nat.le_add_right _ _), Nat.add_sub_cancel_left,
      Nat.add_comm, List.getElem?_cons_succ, List.getElem?_append_right (Nat.le_refl _),
      Nat.sub_self]
    rfl
  first_lt := hfirst
  lt_last := hlast
  wellNested := by
    have hparts : earlier ++ .begins scope :: (body ++ .ends scope :: later) =
        (earlier ++ [.begins scope]) ++ body ++ .ends scope :: later := by simp
    rw [hparts, List.take_left' (by simp; omega), List.drop_left' (by simp)]
    exact hbody

/-- A scope that is open at a leaf of well-nested tokens is around it. -/
theorem exists_scopeAround {tokens : List Token} (h : WellNested tokens) {i : Nat} {t : Token}
    (ht : tokens[i]? = some t) (hleaf : t.isLeaf = true) {scope : Scope}
    {inside around : List Scope}
    (hopened : scopesAfter? [] (tokens.take i) = some (inside ++ scope :: around)) :
    ∃ first last, ScopeAround tokens scope first i last ∧
      scopesAfter? [] (tokens.take first) = some around := by
  have hsplit : tokens = tokens.take i ++ t :: tokens.drop (i + 1) := by
    calc tokens = tokens.take i ++ tokens.drop i := (List.take_append_drop i tokens).symm
      _ = tokens.take i ++ t :: tokens.drop (i + 1) := by
          rw [List.drop_eq_getElem?_toList_append, ht]
          rfl
  have hafter : scopesAfter? (inside ++ scope :: around) (tokens.drop (i + 1)) = some [] := by
    rw [WellNested, hsplit, scopesAfter?_append, hopened] at h
    rw [← h]
    simp [Token.scopesAfter?_leaf hleaf]
  obtain ⟨earlier, inner, hbefore, hearlier, hinner⟩ := exists_opening hopened
  obtain ⟨inner', later, hlater, hinner', -⟩ := exists_closing hafter
  have hbody : WellNested (inner ++ t :: inner') := by
    rw [WellNested, scopesAfter?_append, hinner]
    simp [Token.scopesAfter?_leaf hleaf, hinner']
  have hlength : i = earlier.length + 1 + inner.length := by
    have hi : i < tokens.length := (List.getElem?_eq_some_iff.1 ht).1
    have hcount := congrArg List.length hbefore
    simp only [List.length_take, List.length_append, List.length_cons] at hcount
    omega
  have hparts : tokens = earlier ++ .begins scope ::
      ((inner ++ t :: inner') ++ .ends scope :: later) := by
    rw [hbefore, hlater] at hsplit
    simpa using hsplit
  refine ⟨earlier.length, earlier.length + 1 + (inner ++ t :: inner').length, ?_, ?_⟩
  · rw [hparts]
    exact scopeAround_append hbody (by omega) (by simp; omega)
  · rw [hparts, List.take_left' rfl]
    exact hearlier

/-- The class of a region. -/
def Scope.className? : Scope → Option String
  | .region className => some className
  | .language _ => none

/-- At a leaf of well-nested tokens the innermost of the open regions is the one around it that
begins last. -/
theorem innermostClass_of_opened {tokens : List Token} (h : WellNested tokens) {i : Nat} {t : Token}
    (ht : tokens[i]? = some t) (hleaf : t.isLeaf = true) {opened : List Scope}
    (hopened : scopesAfter? [] (tokens.take i) = some opened) :
    InnermostClass tokens i (opened.filterMap Scope.className?).head? := by
  cases hclasses : opened.filterMap Scope.className? with
  | nil =>
      refine .none fun className first last haround => ?_
      obtain ⟨inside, around, rfl, -⟩ := haround.exists_around hopened
      simp [Scope.className?] at hclasses
  | cons className outer =>
      obtain ⟨languages, scope, around, rfl, hlanguages, hscope, -⟩ :=
        List.filterMap_eq_cons_iff.1 hclasses
      obtain rfl : scope = .region className := by
        cases scope <;> cases hscope
        rfl
      obtain ⟨first, last, haround, hfirst⟩ := exists_scopeAround h ht hleaf hopened
      refine .some haround fun other first' last' haround' => ?_
      -- A region that begins later would be open inside this one, among the languages.
      by_contra hlater
      obtain ⟨inside, between, around', heq, hfirst'⟩ :=
        haround.exists_between haround' (Nat.lt_of_not_le hlater) hopened
      obtain rfl : around = around' := Option.some.inj (hfirst.symm.trans hfirst')
      have hinside : languages = inside ++ .region other :: between := by
        have hopen : languages ++ .region className :: around =
            (inside ++ .region other :: between) ++ .region className :: around := by
          simpa using heq
        exact List.append_cancel_right hopen
      have hmem : Scope.region other ∈ languages := by
        rw [hinside]
        exact List.mem_append_right _ List.mem_cons_self
      cases hlanguages _ hmem

/-! ### What is written -/

/-- The classes that rendering keeps are those of the open regions. -/
theorem openClasses_of_scopesAfter? {t : Token} {opened next : List Scope}
    (h : t.scopesAfter? opened = some next) :
    openClasses (opened.filterMap Scope.className?) t = next.filterMap Scope.className? := by
  cases t with
  | text content => cases h; rfl
  | keyword className content => cases h; rfl
  | begins scope => cases h; cases scope <;> rfl
  | ends scope =>
      cases opened with
      | nil => cases h
      | cons innermost rest =>
          simp only [Token.scopesAfter?] at h
          split at h
          case isFalse => cases h
          case isTrue heq =>
            cases h
            cases heq
            cases scope <;> rfl

theorem foldl_openClasses {tokens : List Token} {opened next : List Scope}
    (h : scopesAfter? opened tokens = some next) :
    tokens.foldl openClasses (opened.filterMap Scope.className?) =
      next.filterMap Scope.className? := by
  induction tokens generalizing opened with
  | nil => cases h; rfl
  | cons t rest ih =>
      rw [scopesAfter?_cons, Option.bind_eq_some_iff] at h
      obtain ⟨middle, ht, hrest⟩ := h
      rw [List.foldl_cons, openClasses_of_scopesAfter? ht]
      exact ih hrest

namespace Renderer

variable (r : Renderer)

@[simp] theorem length_pieces (classes : List String) (tokens : List Token) :
    (r.pieces classes tokens).length = tokens.length := by
  induction tokens generalizing classes with
  | nil => rfl
  | cons t rest ih => simp [pieces, ih]

/-- A token is written inside the classes that the tokens before it leave open. -/
theorem getElem?_pieces (classes : List String) {tokens : List Token} {i : Nat} {t : Token}
    (ht : tokens[i]? = some t) :
    (r.pieces classes tokens)[i]? =
      some (r.piece ((tokens.take i).foldl openClasses classes) t) := by
  induction tokens generalizing classes i with
  | nil => cases ht
  | cons first rest ih =>
      cases i with
      | zero => cases ht; rfl
      | succ i => exact ih (openClasses classes first) ht

end Renderer

/-- Whether the token is a boundary of an embedded language. -/
def Token.marksLanguage : Token → Bool
  | .begins (.language _) | .ends (.language _) => true
  | _ => false

/-- What is written for other tokens does not depend on the boundaries of languages. -/
theorem filter_zip_pieces (r : Renderer) (classes : List String) (tokens : List Token) :
    ((tokens.zip (r.pieces classes tokens)).filter fun written => !written.1.marksLanguage) =
      (tokens.filter (!·.marksLanguage)).zip
        (r.pieces classes (tokens.filter (!·.marksLanguage))) := by
  induction tokens generalizing classes with
  | nil => rfl
  | cons t rest ih =>
      rw [Renderer.pieces, List.zip_cons_cons]
      cases hmarks : t.marksLanguage with
      | false =>
          rw [List.filter_cons_of_pos (by simp [hmarks]), List.filter_cons_of_pos (by simp [hmarks]),
            ih]
          rfl
      | true =>
          have hclasses : openClasses classes t = classes := by
            cases t with
            | begins scope => cases scope <;> first | rfl | cases hmarks
            | ends scope => cases scope <;> first | rfl | cases hmarks
            | text content => rfl
            | keyword className content => rfl
          rw [List.filter_cons_of_neg (by simp [hmarks]), List.filter_cons_of_neg (by simp [hmarks]),
            ih, hclasses]

/-- **Text is written with its innermost class.** In well-nested tokens there is one piece of markup
for each token. A text is written with the class of the region around it that begins last, a keyword
with its own class between the boundaries of a region of that class; and wherever boundaries of
languages are added or left out, what is written for the other tokens stays the same. -/
theorem text_written_with_innermost_class {tokens : List Token} (h : WellNested tokens) :
    (∀ (i : Nat) (content : String), tokens[i]? = some (.text content) →
      ∃! innermost, InnermostClass tokens i innermost) ∧
    ∀ r : Renderer,
      render r tokens = String.join (r.pieces [] tokens) ∧
      (r.pieces [] tokens).length = tokens.length ∧
      (∀ (i : Nat) (content : String) (innermost : Option String),
        tokens[i]? = some (.text content) → InnermostClass tokens i innermost →
        (r.pieces [] tokens)[i]? = some (r.style innermost content)) ∧
      (∀ (i : Nat) (className content : String), tokens[i]? = some (.keyword className content) →
        (r.pieces [] tokens)[i]? = some (r.opening (.region className) ++
          r.style (some className) content ++ r.closing (.region className))) ∧
      (∀ (i : Nat) (scope : Scope), tokens[i]? = some (.begins scope) →
        (r.pieces [] tokens)[i]? = some (r.opening scope)) ∧
      (∀ (i : Nat) (scope : Scope), tokens[i]? = some (.ends scope) →
        (r.pieces [] tokens)[i]? = some (r.closing scope)) ∧
      ∀ mixed : List Token,
        mixed.filter (!·.marksLanguage) = tokens.filter (!·.marksLanguage) →
        ((mixed.zip (r.pieces [] mixed)).filter fun written => !written.1.marksLanguage) =
          (tokens.zip (r.pieces [] tokens)).filter fun written => !written.1.marksLanguage := by
  have hclass : ∀ i content, tokens[i]? = some (.text content) →
      InnermostClass tokens i ((tokens.take i).foldl openClasses []).head? := by
    intro i content ht
    have hfront := h
    rw [WellNested, ← List.take_append_drop i tokens, scopesAfter?_append,
      Option.bind_eq_some_iff] at hfront
    obtain ⟨opened, hopened, -⟩ := hfront
    have hclasses := foldl_openClasses hopened
    rw [List.filterMap_nil] at hclasses
    rw [hclasses]
    exact innermostClass_of_opened h ht rfl hopened
  refine ⟨fun i content ht => ⟨_, hclass i content ht, fun other hother =>
    hother.unique (hclass i content ht)⟩, fun r => ⟨rfl, r.length_pieces [] tokens, ?_, ?_, ?_, ?_,
      ?_⟩⟩
  · intro i content innermost ht hinnermost
    rw [hinnermost.unique (hclass i content ht)]
    exact r.getElem?_pieces [] ht
  · exact fun i className content ht => r.getElem?_pieces [] ht
  · exact fun i scope ht => r.getElem?_pieces [] ht
  · exact fun i scope ht => r.getElem?_pieces [] ht
  · intro mixed hmixed
    rw [filter_zip_pieces, filter_zip_pieces, hmixed]

/-- A text in a language in a region, after a region that has ended. -/
def sampleNestedTokens : List Token :=
  [.begins (.region "outer"), .begins (.language "inner"), .begins (.region "number"), .text "1",
    .ends (.region "number"), .text "b", .keyword "built" "if", .ends (.language "inner"),
    .ends (.region "outer")]

/-- The same with a language that overlaps the regions. -/
def sampleOverlappingTokens : List Token :=
  [.begins (.region "outer"), .begins (.region "number"), .begins (.language "inner"), .text "1",
    .ends (.region "number"), .text "b", .keyword "built" "if", .ends (.region "outer"),
    .ends (.language "inner")]

/-- The class of a text can be told from what a renderer writes that marks the class. -/
theorem text_written_with_innermost_class_sample :
    WellNested sampleNestedTokens ∧ InnermostClass sampleNestedTokens 5 (some "outer") ∧
      ∀ r : Renderer,
        (r.pieces [] sampleNestedTokens)[6]? = some (r.opening (.region "built") ++
          r.style (some "built") "if" ++ r.closing (.region "built")) ∧
        ((sampleOverlappingTokens.zip (r.pieces [] sampleOverlappingTokens)).filter
            fun written => !written.1.marksLanguage) =
          (sampleNestedTokens.zip (r.pieces [] sampleNestedTokens)).filter
            fun written => !written.1.marksLanguage := by
  have hnested : WellNested sampleNestedTokens := by decide
  obtain ⟨hclasses, hwritten⟩ := text_written_with_innermost_class hnested
  refine ⟨hnested, ?_, fun r => ?_⟩
  · obtain ⟨innermost, hinnermost, -⟩ := hclasses 5 "b" rfl
    obtain ⟨-, -, htext, -⟩ := hwritten ⟨fun _ => "", fun _ => "",
      fun className _ => if className = some "outer" then "outer" else ""⟩
    have hpiece := htext 5 "b" innermost rfl hinnermost
    have houter : innermost = some "outer" := by
      by_contra hother
      simp only [if_neg hother] at hpiece
      exact absurd hpiece (by decide)
    rwa [← houter]
  · obtain ⟨-, -, -, hkeyword, -, -, hmixed⟩ := hwritten r
    exact ⟨hkeyword 6 "built" "if" rfl, hmixed sampleOverlappingTokens rfl⟩

end LexicalModes
