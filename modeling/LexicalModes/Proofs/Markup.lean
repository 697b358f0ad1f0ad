import Mathlib.Data.List.Forall2
import LexicalModes.Render.Html
import LexicalModes.Proofs.Tokens

/-!
Reading markup back. A reader takes everything between brackets for a tag and the rest for text, in
which it decodes the four entities. Escaped text has no bracket and no quote, whatever it was made
from, so the tags that are found in rendered tokens are those that were written there, and no class
name can end its attribute.
-/

namespace LexicalModes

/-! ### A reader of markup -/

/-- What a reader of markup finds: a tag, with its brackets, or a character outside of tags. -/
inductive Markup
  | tag (written : String)
  | char (c : Char)
  deriving DecidableEq, Repr

def Markup.tag? : Markup → Option String
  | .tag written => some written
  | .char _ => none

def Markup.char? : Markup → Option Char
  | .tag _ => none
  | .char c => some c

/-- Read markup, outside of tags or inside of one with what has been read of it, the latest first.
A bracket that is not closed starts no tag. -/
def readMarkup : Option (List Char) → List Char → List Markup
  | none, [] => []
  | none, c :: rest =>
    if c = '<' then readMarkup (some [c]) rest else .char c :: readMarkup none rest
  | some opened, [] => opened.reverse.map .char
  | some opened, c :: rest =>
    if c = '>' then .tag (String.ofList (c :: opened).reverse) :: readMarkup none rest
    else readMarkup (some (c :: opened)) rest

/-- The tags of a markup, in order. -/
def tagsOf (markup : String) : List String :=
  (readMarkup none markup.toList).filterMap Markup.tag?

/-- The markup with every tag deleted. -/
def withoutTags (markup : String) : String :=
  String.ofList ((readMarkup none markup.toList).filterMap Markup.char?)

/-- Decode the entities of the characters that mean something in markup. -/
def decodeChars : List Char → List Char
  | '&' :: 'a' :: 'm' :: 'p' :: ';' :: rest => '&' :: decodeChars rest
  | '&' :: 'l' :: 't' :: ';' :: rest => '<' :: decodeChars rest
  | '&' :: 'g' :: 't' :: ';' :: rest => '>' :: decodeChars rest
  | '&' :: 'q' :: 'u' :: 'o' :: 't' :: ';' :: rest => '"' :: decodeChars rest
  | c :: rest => c :: decodeChars rest
  | [] => []

def decodeEntities (content : String) : String := String.ofList (decodeChars content.toList)

/-! ### Escaped text -/

/-- The characters that mean something in markup. -/
def markupChars : List Char := ['&', '<', '>', '"']

/-- What a character is written as. -/
def escapedChar (c : Char) : List Char := ((markupEntity? c).getD (String.singleton c)).toList

theorem toList_escapeMarkup (content : String) :
    (escapeMarkup content).toList = content.toList.flatMap escapedChar := by
  rw [escapeMarkup, replaceEntities, String.toList_join, List.flatMap_map]
  rfl

theorem mem_markupChars {c : Char} : c ∈ markupChars ↔ c = '&' ∨ c = '<' ∨ c = '>' ∨ c = '"' := by
  simp [markupChars]

theorem escapedChar_of_notMem {c : Char} (hc : c ∉ markupChars) : escapedChar c = [c] := by
  rw [mem_markupChars] at hc
  have hentity : markupEntity? c = none := by
    unfold markupEntity?
    split <;> simp_all
  rw [escapedChar, hentity]
  exact String.toList_singleton c

/-- An escaped character is decoded to itself, and what follows is decoded on its own. -/
theorem decodeChars_escapedChar (c : Char) (rest : List Char) :
    decodeChars (escapedChar c ++ rest) = c :: decodeChars rest := by
  by_cases hc : c ∈ markupChars
  · rcases mem_markupChars.1 hc with rfl | rfl | rfl | rfl <;> rfl
  · rw [escapedChar_of_notMem hc, List.singleton_append, decodeChars]
    -- An entity starts with an ampersand, so none starts here.
    all_goals exact fun _ hamp _ => hc (mem_markupChars.2 (.inl hamp))

theorem decodeChars_flatMap_escapedChar (content rest : List Char) :
    decodeChars (content.flatMap escapedChar ++ rest) = content ++ decodeChars rest := by
  induction content with
  | nil => rfl
  | cons c more ih =>
      rw [List.flatMap_cons, List.append_assoc, decodeChars_escapedChar, ih]
      rfl

/-- Decoding undoes escaping. -/
theorem decodeEntities_escapeMarkup (content : String) :
    decodeEntities (escapeMarkup content) = content := by
  have h := decodeChars_flatMap_escapedChar content.toList []
  rw [List.append_nil] at h
  rw [decodeEntities, toList_escapeMarkup, h]
  simp [decodeChars]

/-- Escaped text has nothing that could begin or end a tag or end an attribute. -/
theorem ne_of_mem_escapeMarkup {content : String} {c : Char}
    (h : c ∈ (escapeMarkup content).toList) : c ≠ '<' ∧ c ≠ '>' ∧ c ≠ '"' := by
  have hspecial : ((markupChars.flatMap escapedChar).all
      fun c => c != '<' && c != '>' && c != '"') = true := by decide
  rw [toList_escapeMarkup, List.mem_flatMap] at h
  obtain ⟨d, -, hc⟩ := h
  by_cases hd : d ∈ markupChars
  · have hne := List.all_eq_true.1 hspecial c (List.mem_flatMap.2 ⟨d, hd, hc⟩)
    simpa [and_assoc] using hne
  · rw [escapedChar_of_notMem hd, List.mem_singleton] at hc
    rw [mem_markupChars, ← hc] at hd
    exact ⟨fun heq => hd (.inr (.inl heq)), fun heq => hd (.inr (.inr (.inl heq))),
      fun heq => hd (.inr (.inr (.inr heq)))⟩

theorem escapeMarkup_append (first second : String) :
    escapeMarkup (first ++ second) = escapeMarkup first ++ escapeMarkup second := by
  apply String.toList_inj.1
  simp [toList_escapeMarkup]

theorem escapeMarkup_of_plain {content : String} (h : ∀ c ∈ content.toList, c ∉ markupChars) :
    escapeMarkup content = content := by
  apply String.toList_inj.1
  rw [toList_escapeMarkup]
  calc content.toList.flatMap escapedChar
      = content.toList.flatMap fun c => [c] := by
        simp only [List.flatMap]
        rw [List.map_congr_left fun c hc => escapedChar_of_notMem (h c hc)]
    _ = content.toList := List.flatMap_singleton' _

/-! ### Reading tags and text -/

theorem readMarkup_plain {content : List Char} (h : '<' ∉ content) (rest : List Char) :
    readMarkup none (content ++ rest) = content.map .char ++ readMarkup none rest := by
  induction content with
  | nil => rfl
  | cons c more ih =>
      rw [List.mem_cons, not_or] at h
      rw [List.cons_append, readMarkup, if_neg (Ne.symm h.1), ih h.2]
      rfl

theorem readMarkup_escapeMarkup (content : String) (rest : List Char) :
    readMarkup none ((escapeMarkup content).toList ++ rest) =
      (escapeMarkup content).toList.map .char ++ readMarkup none rest :=
  readMarkup_plain (fun h => (ne_of_mem_escapeMarkup h).1 rfl) rest

theorem readMarkup_opened {inner : List Char} (h : '>' ∉ inner) (opened rest : List Char) :
    readMarkup (some opened) (inner ++ '>' :: rest) =
      .tag (String.ofList (opened.reverse ++ inner ++ ['>'])) :: readMarkup none rest := by
  induction inner generalizing opened with
  | nil => simp [readMarkup]
  | cons c more ih =>
      rw [List.mem_cons, not_or] at h
      rw [List.cons_append, readMarkup, if_neg (Ne.symm h.1), ih h.2]
      simp

/-- What stands between brackets is one tag. -/
theorem readMarkup_tag {inner : List Char} (h : '>' ∉ inner) (rest : List Char) :
    readMarkup none ('<' :: inner ++ '>' :: rest) =
      .tag (String.ofList ('<' :: inner ++ ['>'])) :: readMarkup none rest := by
  rw [List.cons_append, readMarkup, if_pos rfl, readMarkup_opened h]
  rfl

/-! ### Spans -/

/-- The start of a span, with its class, or the end of one. -/
inductive SpanTag
  | opening (className : String)
  | closing
  deriving DecidableEq, Repr

/-- The spans that a token begins and ends. The classes of regions start in the same way. -/
def Token.spanTags (classStart : String) : Token → List SpanTag
  | .text _ => []
  | .keyword className _ => [.opening (classStart ++ className), .closing]
  | .begins (.region className) => [.opening (classStart ++ className)]
  | .begins (.language name) => [.opening name]
  | .ends _ => [.closing]

/-- The tag begins a span whose only attribute decodes to the class, and no character in it ends the
attribute or the tag; or it ends a span. -/
inductive SpanTag.WrittenAs : SpanTag → String → Prop
  | opening {className value : String} (hclass : decodeEntities value = className)
      (hinside : ∀ c ∈ value.toList, c ≠ '<' ∧ c ≠ '>' ∧ c ≠ '"') :
      WrittenAs (.opening className) ("<span class=\"" ++ value ++ "\">")
  | closing : WrittenAs .closing "</span>"

def SpanTag.written : SpanTag → String
  | .opening className => spanTag (escapeMarkup className)
  | .closing => "</span>"

theorem SpanTag.writtenAs_written (tag : SpanTag) : tag.WrittenAs tag.written := by
  cases tag with
  | opening className =>
      exact .opening (decodeEntities_escapeMarkup className) fun c hc => ne_of_mem_escapeMarkup hc
  | closing => exact .closing

theorem SpanTag.readMarkup_written (tag : SpanTag) (rest : List Char) :
    readMarkup none (tag.written.toList ++ rest) = .tag tag.written :: readMarkup none rest := by
  cases tag with
  | opening className =>
      have hinner : '>' ∉ "span class=\"".toList ++ (escapeMarkup className).toList ++ ['"'] := by
        simp only [List.mem_append, not_or]
        exact ⟨⟨by decide, fun h => (ne_of_mem_escapeMarkup h).2.1 rfl⟩, by decide⟩
      have hwritten : (SpanTag.opening className).written.toList = '<' ::
          ("span class=\"".toList ++ (escapeMarkup className).toList ++ ['"']) ++ ['>'] := by
        simp [written, spanTag]
      have hread := readMarkup_tag hinner rest
      rw [← hwritten, String.ofList_toList] at hread
      rw [← hread, hwritten]
      simp
  | closing =>
      have hinner : '>' ∉ "/span".toList := by decide
      exact readMarkup_tag hinner rest

/-- What a reader finds in the markup of a token. -/
def Token.marks (classStart : String) : Token → List Markup
  | .text content => (escapeMarkup content).toList.map .char
  | .keyword className content =>
    .tag (SpanTag.opening (classStart ++ className)).written ::
      (escapeMarkup content).toList.map .char ++ [.tag SpanTag.closing.written]
  | .begins (.region className) => [.tag (SpanTag.opening (classStart ++ className)).written]
  | .begins (.language name) => [.tag (SpanTag.opening name).written]
  | .ends _ => [.tag SpanTag.closing.written]

theorem Token.filterMap_tag?_marks (classStart : String) (t : Token) :
    (t.marks classStart).filterMap Markup.tag? =
      (t.spanTags classStart).map SpanTag.written := by
  have hchars : ∀ content : List Char, (content.map Markup.char).filterMap Markup.tag? = [] := by
    intro content
    rw [List.filterMap_map]
    exact List.filterMap_eq_nil_iff.2 fun _ _ => rfl
  cases t with
  | text content => exact hchars _
  | keyword className content =>
      simp only [marks, List.cons_append, List.filterMap_cons, List.filterMap_append, hchars]
      rfl
  | begins scope => cases scope <;> rfl
  | ends scope => rfl

theorem Token.filterMap_char?_marks (classStart : String) (t : Token) :
    (t.marks classStart).filterMap Markup.char? = (escapeMarkup t.content).toList := by
  have hchars : ∀ content : List Char,
      (content.map Markup.char).filterMap Markup.char? = content := by
    intro content
    rw [List.filterMap_map]
    exact List.filterMap_some
  cases t with
  | text content => exact hchars _
  | keyword className content =>
      simp only [marks, List.cons_append, List.filterMap_cons, List.filterMap_append, hchars]
      exact List.append_nil _
  | begins scope => cases scope <;> rfl
  | ends scope => rfl

section

variable {classStart : String} (hstart : ∀ c ∈ classStart.toList, c ∉ markupChars)

include hstart

theorem opening_html_region (className : String) :
    (Renderer.html classStart).opening (.region className) =
      (SpanTag.opening (classStart ++ className)).written := by
  rw [SpanTag.written, escapeMarkup_append, escapeMarkup_of_plain hstart]
  rfl

theorem readMarkup_piece (classes : List String) (t : Token) (rest : List Char) :
    readMarkup none (((Renderer.html classStart).piece classes t).toList ++ rest) =
      t.marks classStart ++ readMarkup none rest := by
  cases t with
  | text content => exact readMarkup_escapeMarkup content rest
  | keyword className content =>
      rw [Renderer.piece, opening_html_region hstart, String.toList_append, String.toList_append,
        List.append_assoc, List.append_assoc, SpanTag.readMarkup_written]
      change Markup.tag _ :: readMarkup none ((escapeMarkup content).toList ++
        (SpanTag.closing.written.toList ++ rest)) = _
      rw [readMarkup_escapeMarkup, SpanTag.readMarkup_written]
      simp [Token.marks]
  | begins scope =>
      cases scope with
      | region className =>
          rw [Renderer.piece, opening_html_region hstart, SpanTag.readMarkup_written]
          rfl
      | language name => exact SpanTag.readMarkup_written (.opening name) rest
  | ends scope => exact SpanTag.readMarkup_written .closing rest

theorem readMarkup_pieces (classes : List String) (tokens : List Token) :
    readMarkup none (String.join ((Renderer.html classStart).pieces classes tokens)).toList =
      tokens.flatMap (Token.marks classStart) := by
  induction tokens generalizing classes with
  | nil => rfl
  | cons t rest ih =>
      rw [Renderer.pieces, String.join_cons, String.toList_append, readMarkup_piece hstart, ih]
      rfl

/-- The tags of rendered tokens are those of their spans. -/
theorem tagsOf_html (tokens : List Token) :
    tagsOf (render (.html classStart) tokens) =
      (tokens.flatMap (Token.spanTags classStart)).map SpanTag.written := by
  rw [tagsOf, render, readMarkup_pieces hstart, List.filterMap_flatMap, List.map_flatMap]
  simp only [Token.filterMap_tag?_marks]

theorem withoutTags_html (tokens : List Token) :
    withoutTags (render (.html classStart) tokens) = escapeMarkup (plainText tokens) := by
  rw [withoutTags, render, readMarkup_pieces hstart, List.filterMap_flatMap]
  simp only [Token.filterMap_char?_marks]
  induction tokens with
  | nil => rfl
  | cons t rest ih =>
      rw [plainText_cons, escapeMarkup_append, ← ih, List.flatMap_cons, String.ofList_append,
        String.ofList_toList]

/-- Without its tags and with its entities decoded, the markup of tokens is their text. -/
theorem decodeEntities_withoutTags_html (tokens : List Token) :
    decodeEntities (withoutTags (render (.html classStart) tokens)) = plainText tokens := by
  rw [withoutTags_html hstart, decodeEntities_escapeMarkup]

end

/-! ### Nesting of spans -/

/-- How many spans are open after a tag. There is none to close at depth zero. -/
def depthAfter? (depth : Nat) (tag : String) : Option Nat :=
  if tag = "</span>" then if depth = 0 then none else some (depth - 1)
  else some (depth + 1)

/-- Every end of a span closes a span that is open, and none stays open. -/
def SpansNested (tags : List String) : Prop := tags.foldlM depthAfter? 0 = some 0

theorem depthAfter?_opening (depth : Nat) (className : String) :
    depthAfter? depth (SpanTag.opening className).written = some (depth + 1) := by
  rw [depthAfter?, if_neg]
  intro h
  have hsecond := congrArg (fun tag : String => tag.toList[1]?) h
  simp [SpanTag.written, spanTag] at hsecond

theorem depthAfter?_closing (depth : Nat) :
    depthAfter? (depth + 1) SpanTag.closing.written = some depth := rfl

/-- A token opens and closes as many spans as scopes. -/
theorem foldlM_depthAfter?_spanTags (classStart : String) {t : Token} {opened next : List Scope}
    (h : t.scopesAfter? opened = some next) :
    ((t.spanTags classStart).map SpanTag.written).foldlM depthAfter? opened.length =
      some next.length := by
  cases t with
  | text content => cases h; rfl
  | keyword className content =>
      cases h
      simp only [Token.spanTags, List.map_cons, List.map_nil, List.foldlM_cons,
        depthAfter?_opening]
      exact depthAfter?_closing _
  | begins scope =>
      cases h
      cases scope <;> simp [Token.spanTags, depthAfter?_opening]
  | ends scope =>
      cases opened with
      | nil => cases h
      | cons innermost around =>
          simp only [Token.scopesAfter?] at h
          split at h
          case isFalse => cases h
          case isTrue =>
            cases h
            rfl

theorem foldlM_depthAfter? (classStart : String) {tokens : List Token} {opened next : List Scope}
    (h : scopesAfter? opened tokens = some next) :
    ((tokens.flatMap (Token.spanTags classStart)).map SpanTag.written).foldlM depthAfter?
      opened.length = some next.length := by
  induction tokens generalizing opened with
  | nil => cases h; rfl
  | cons t rest ih =>
      rw [scopesAfter?_cons, Option.bind_eq_some_iff] at h
      obtain ⟨middle, ht, hrest⟩ := h
      rw [List.flatMap_cons, List.map_append, List.foldlM_append,
        foldlM_depthAfter?_spanTags classStart ht]
      exact ih hrest

theorem spansNested_html {classStart : String} (hstart : ∀ c ∈ classStart.toList, c ∉ markupChars)
    {tokens : List Token} (h : WellNested tokens) :
    SpansNested (tagsOf (render (.html classStart) tokens)) := by
  rw [SpansNested, tagsOf_html hstart]
  exact foldlM_depthAfter? classStart h

theorem forall₂_writtenAs_html {classStart : String}
    (hstart : ∀ c ∈ classStart.toList, c ∉ markupChars) (tokens : List Token) :
    List.Forall₂ SpanTag.WrittenAs (tokens.flatMap (Token.spanTags classStart))
      (tagsOf (render (.html classStart) tokens)) := by
  rw [tagsOf_html hstart, List.forall₂_map_right_iff]
  exact List.forall₂_same.2 fun tag _ => tag.writtenAs_written

end LexicalModes
