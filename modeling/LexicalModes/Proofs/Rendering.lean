import LexicalModes.Render.Terminal
import LexicalModes.Proofs.Markup

/-!
Every renderer carries the text. Nothing is added by the one that leaves content as it is, markup is
read back by deleting tags and decoding entities, and what a terminal is told is read back by
deleting the escape sequences. A text without the escape character has nothing in it that could be
taken for a part of a sequence.
-/

namespace LexicalModes

/-! ### A reader of escape sequences -/

/-- The character that escape sequences start with. -/
def escapeChar : Char := Char.ofNat 0x1B

/-- Whether the character can be among the parameters of a sequence for colours and faces. -/
def isParameter (c : Char) : Bool := c.isDigit || c == ';'

/-- What has been read of a sequence. -/
inductive Sequence
  | outside
  | escaped
  /-- The parameters read so far, the latest first. -/
  | parameters (read : List Char)

/-- What has been read, if it turns out to be no sequence. -/
def Sequence.read : Sequence → List Char
  | outside => []
  | escaped => [escapeChar]
  | parameters read => escapeChar :: '[' :: read.reverse

/-- The characters that are left without the sequences for colours and faces, which are an escape
character, a bracket, parameters and an m. -/
def withoutSequencesFrom : Sequence → List Char → List Char
  | state, [] => state.read
  | state, c :: rest =>
    if c = escapeChar then state.read ++ withoutSequencesFrom .escaped rest
    else
      match state with
      | .outside => c :: withoutSequencesFrom .outside rest
      | .escaped =>
        if c = '[' then withoutSequencesFrom (.parameters []) rest
        else state.read ++ c :: withoutSequencesFrom .outside rest
      | .parameters read =>
        if c = 'm' then withoutSequencesFrom .outside rest
        else if isParameter c then withoutSequencesFrom (.parameters (c :: read)) rest
        else state.read ++ c :: withoutSequencesFrom .outside rest

def withoutSequences (written : String) : String :=
  String.ofList (withoutSequencesFrom .outside written.toList)

/-- Text without the escape character is left as it is. -/
theorem withoutSequencesFrom_plain {content : List Char} (h : escapeChar ∉ content)
    (rest : List Char) :
    withoutSequencesFrom .outside (content ++ rest) =
      content ++ withoutSequencesFrom .outside rest := by
  induction content with
  | nil => rfl
  | cons c more ih =>
      rw [List.mem_cons, not_or] at h
      rw [List.cons_append, withoutSequencesFrom, if_neg (Ne.symm h.1), ih h.2]
      rfl

theorem withoutSequencesFrom_parameters {parameters : List Char}
    (h : parameters.all isParameter = true) (read rest : List Char) :
    withoutSequencesFrom (.parameters read) (parameters ++ 'm' :: rest) =
      withoutSequencesFrom .outside rest := by
  induction parameters generalizing read with
  | nil => rfl
  | cons c more ih =>
      rw [List.all_cons, Bool.and_eq_true] at h
      obtain ⟨hc, hmore⟩ := h
      have hescape : c ≠ escapeChar := by
        rintro rfl
        exact absurd hc (by decide)
      have hend : c ≠ 'm' := by
        rintro rfl
        exact absurd hc (by decide)
      rw [List.cons_append, withoutSequencesFrom, if_neg hescape]
      simp only [if_neg hend, hc, if_true]
      exact ih hmore _

theorem withoutSequencesFrom_escapeSequence {parameters : String}
    (h : parameters.toList.all isParameter = true) (rest : List Char) :
    withoutSequencesFrom .outside ((escapeSequence parameters).toList ++ rest) =
      withoutSequencesFrom .outside rest := by
  have hwritten : (escapeSequence parameters).toList ++ rest =
      escapeChar :: '[' :: (parameters.toList ++ 'm' :: rest) := by
    simp [escapeSequence, escapeChar]
  rw [hwritten]
  exact withoutSequencesFrom_parameters h [] rest

/-! ### Content in colour -/

/-- What is written reads as the content, whatever follows. -/
def Carries (content written : String) : Prop :=
  ∀ rest, withoutSequencesFrom .outside (written.toList ++ rest) =
    content.toList ++ withoutSequencesFrom .outside rest

theorem Carries.refl {content : String} (h : escapeChar ∉ content.toList) :
    Carries content content :=
  withoutSequencesFrom_plain h

theorem Carries.between {content written before after : String} (h : Carries content written)
    (hbefore : before.toList.all isParameter = true)
    (hafter : after.toList.all isParameter = true) :
    Carries content (escapeSequence before ++ written ++ escapeSequence after) := by
  intro rest
  rw [String.toList_append, String.toList_append, List.append_assoc, List.append_assoc,
    withoutSequencesFrom_escapeSequence hbefore, h, withoutSequencesFrom_escapeSequence hafter]

theorem all_isParameter_repr (n : Nat) : n.repr.toList.all isParameter = true := by
  rw [List.all_eq_true, Nat.toList_repr]
  intro c hc
  rw [isParameter, Nat.isDigit_of_mem_toDigits (by decide) (by decide) hc]
  rfl

theorem Colour.all_isParameter_parameters (colour : Colour) :
    colour.parameters.toList.all isParameter = true := by
  simp only [Colour.parameters, String.toList_append, List.all_append, all_isParameter_repr]
  decide

theorem Ink.carries_apply (ink : Ink) {content : String} (h : Carries content content) :
    Carries content (ink.apply content) := by
  have htint : Carries content (ink.tint content) := by
    rw [Ink.tint]
    cases ink.colour with
    | none => exact h
    | some colour => exact h.between colour.all_isParameter_parameters (by decide)
  rw [Ink.apply]
  cases ink.face with
  | upright => exact htint
  | bold => exact htint.between (by decide) (by decide)
  | italic => exact htint.between (by decide) (by decide)

theorem carries_style_terminal (className : Option String) {content : String}
    (h : escapeChar ∉ content.toList) :
    Carries content (Renderer.terminal.style className content) := by
  dsimp only [Renderer.terminal]
  cases className.bind Ink.ofClass? with
  | none => exact .refl h
  | some ink => exact ink.carries_apply (.refl h)

theorem carries_piece_terminal (classes : List String) {t : Token}
    (h : escapeChar ∉ t.content.toList) :
    Carries t.content (Renderer.terminal.piece classes t) := by
  cases t with
  | text content => exact carries_style_terminal _ h
  | keyword className content =>
      have hstyle := carries_style_terminal (some className) h
      have hpiece : Renderer.terminal.piece classes (.keyword className content) =
          Renderer.terminal.style (some className) content := by
        change "" ++ _ ++ "" = _
        rw [String.empty_append, String.append_empty]
      rwa [hpiece]
  | begins scope => exact .refl h
  | ends scope => exact .refl h

theorem withoutSequencesFrom_pieces (classes : List String) {tokens : List Token}
    (h : ∀ t ∈ tokens, escapeChar ∉ t.content.toList) :
    withoutSequencesFrom .outside (String.join (Renderer.terminal.pieces classes tokens)).toList =
      (plainText tokens).toList := by
  induction tokens generalizing classes with
  | nil => rfl
  | cons t rest ih =>
      obtain ⟨ht, hrest⟩ := List.forall_mem_cons.1 h
      rw [Renderer.pieces, String.join_cons, String.toList_append, carries_piece_terminal classes ht,
        ih (openClasses classes t) hrest, plainText_cons, String.toList_append]

/-- Without the escape sequences, what a terminal is told is the text. -/
theorem withoutSequences_terminal {tokens : List Token}
    (h : ∀ t ∈ tokens, escapeChar ∉ t.content.toList) :
    withoutSequences (render .terminal tokens) = plainText tokens := by
  rw [withoutSequences, render, withoutSequencesFrom_pieces [] h, String.ofList_toList]

theorem pieces_identity (classes : List String) (tokens : List Token) :
    Renderer.identity.pieces classes tokens = tokens.map Token.content := by
  induction tokens generalizing classes with
  | nil => rfl
  | cons t rest ih =>
      rw [Renderer.pieces, ih]
      cases t <;> simp [Renderer.piece, Renderer.identity]

theorem render_identity (tokens : List Token) : render .identity tokens = plainText tokens := by
  rw [render, pieces_identity, plainText]

/-- **Every renderer carries the text.** Markup turns back into it when tags are deleted and
entities decoded, and its tags are those of the spans of the tokens, whatever characters their names
and texts are made of; what a terminal is told turns back into it when escape sequences are deleted.
-/
theorem rendered_text_read_back (tokens : List Token) :
    render .identity tokens = plainText tokens ∧
    (∀ classStart : String, (∀ c ∈ classStart.toList, c ∉ markupChars) →
      decodeEntities (withoutTags (render (.html classStart) tokens)) = plainText tokens ∧
      List.Forall₂ SpanTag.WrittenAs (tokens.flatMap (Token.spanTags classStart))
        (tagsOf (render (.html classStart) tokens)) ∧
      (WellNested tokens → SpansNested (tagsOf (render (.html classStart) tokens)))) ∧
    ((∀ t ∈ tokens, escapeChar ∉ t.content.toList) →
      withoutSequences (render .terminal tokens) = plainText tokens) := by
  refine ⟨render_identity tokens, fun classStart hstart => ⟨?_, ?_, ?_⟩, ?_⟩
  · exact decodeEntities_withoutTags_html hstart tokens
  · exact forall₂_writtenAs_html hstart tokens
  · exact spansNested_html hstart
  · exact withoutSequences_terminal

/-- Names and texts that look like markup. -/
def sampleMarkedTokens : List Token :=
  [.begins (.region "a\">"), .text "<b>&amp;", .keyword "keyword" "if", .begins (.language "<c"),
    .text "&", .ends (.language "<c"), .ends (.region "a\">")]

theorem rendered_text_read_back_sample :
    WellNested sampleMarkedTokens ∧
    (∀ c ∈ "x-".toList, c ∉ markupChars) ∧
    decodeEntities (withoutTags (render (.html "x-") sampleMarkedTokens)) = "<b>&amp;if&" ∧
    List.Forall₂ SpanTag.WrittenAs
      [.opening "x-a\">", .opening "x-keyword", .closing, .opening "<c", .closing, .closing]
      ["<span class=\"x-a&quot;&gt;\">", "<span class=\"x-keyword\">", "</span>",
        "<span class=\"&lt;c\">", "</span>", "</span>"] ∧
    SpansNested (tagsOf (render (.html "x-") sampleMarkedTokens)) ∧
    (∀ t ∈ sampleMarkedTokens, escapeChar ∉ t.content.toList) ∧
    withoutSequences (render .terminal sampleMarkedTokens) = "<b>&amp;if&" := by
  have hnested : WellNested sampleMarkedTokens := by decide
  have hstart : ∀ c ∈ "x-".toList, c ∉ markupChars := by
    have hchars : "x-".toList = ['x', '-'] := rfl
    rw [hchars]
    simp [markupChars]
  have hplain : ∀ t ∈ sampleMarkedTokens, escapeChar ∉ t.content.toList := by decide
  have htext : plainText sampleMarkedTokens = "<b>&amp;if&" := by decide +kernel
  have htags : tagsOf (render (.html "x-") sampleMarkedTokens) =
      ["<span class=\"x-a&quot;&gt;\">", "<span class=\"x-keyword\">", "</span>",
        "<span class=\"&lt;c\">", "</span>", "</span>"] := by decide +kernel
  obtain ⟨-, hhtml, hterminal⟩ := rendered_text_read_back sampleMarkedTokens
  obtain ⟨hdecoded, hspans, hnesting⟩ := hhtml "x-" hstart
  rw [htext] at hdecoded hterminal
  rw [htags] at hspans
  exact ⟨hnested, hstart, hdecoded, hspans, hnesting hnested, hplain, hterminal hplain⟩

end LexicalModes
