import LexicalModes.Highlight.Classify
import LexicalModes.Proofs.Tokens

/-!
What classifying a text adds to a stream. The lexemes found one after another lie in order inside
the text (`Chained`), so the tokens of the lexemes and of the text between them put the text
together again. Only texts and keywords are added, never a boundary of a region.
-/

namespace LexicalModes

open Pattern

/-! ### Slices -/

namespace Pattern.Text

theorem slice_append_slice (text : Text) {i j k : Nat} (hij : i ≤ j) (hjk : j ≤ k) :
    text.slice i j ++ text.slice j k = text.slice i k := by
  rw [slice, slice, slice, ← String.ofList_append, ← Array.toList_append,
    Array.extract_append_extract, Nat.min_eq_left hij, Nat.max_eq_right hjk]

theorem slice_eq_empty (text : Text) {i j : Nat} (h : min j text.size ≤ i) :
    text.slice i j = "" := by
  rw [slice, Array.extract_eq_empty_of_le h, Array.toList_empty, String.ofList_nil]

theorem length_slice (text : Text) (i j : Nat) :
    (text.slice i j).length = min j text.size - i := by
  rw [slice, String.length_ofList, Array.length_toList, Array.size_extract]

/-- Positions past the end of the text add nothing to a slice. -/
theorem slice_of_size_le (text : Text) (i : Nat) {j : Nat} (h : text.size ≤ j) :
    text.slice i j = text.slice i text.size := by
  rcases Nat.lt_or_eq_of_le h with hlt | heq
  · rw [slice, Array.extract_of_size_lt hlt]
    rfl
  · rw [heq]

theorem slice_ofString (content : String) :
    (ofString content).slice 0 (ofString content).size = content := by
  rw [slice, Array.extract_size]
  simp [ofString]

end Pattern.Text

/-! ### Lexemes -/

/-- Lexemes that follow each other inside a text of the given size, none of them empty. -/
def Chained (size : Nat) : Nat → List (Nat × Nat) → Prop
  | _, [] => True
  | last, lexeme :: rest =>
    last ≤ lexeme.1 ∧ lexeme.1 < lexeme.2 ∧ lexeme.2 ≤ size ∧ Chained size lexeme.2 rest

/-- Where the last of the lexemes ends. -/
def lastEnd : Nat → List (Nat × Nat) → Nat
  | last, [] => last
  | _, lexeme :: rest => lastEnd lexeme.2 rest

theorem chained_lexemesFrom (p : Pattern) (text : Text) (fuel last position : Nat) :
    Chained text.size last (lexemesFrom p text fuel last position).1 := by
  induction fuel generalizing last position with
  | zero => exact trivial
  | succ fuel ih =>
      rw [lexemesFrom]
      split
      case h_1 => exact trivial
      case h_2 => exact trivial
      case h_3 span _ =>
        by_cases hempty : span.start = span.stop
        · rw [if_pos hempty]
          exact ih last (span.stop + 1)
        · rw [if_neg hempty]
          exact ⟨span.low_le_start, Nat.lt_of_le_of_ne span.start_le_stop hempty,
            span.stop_le_size, ih span.stop span.stop⟩

theorem Chained.le_lastEnd {size last : Nat} {lexemes : List (Nat × Nat)}
    (h : Chained size last lexemes) : last ≤ lastEnd last lexemes := by
  induction lexemes generalizing last with
  | nil => exact Nat.le_refl last
  | cons lexeme rest ih =>
      obtain ⟨hlast, hlexeme, -, hrest⟩ := h
      have hle : lexeme.2 ≤ lastEnd lexeme.2 rest := ih hrest
      simp only [lastEnd]
      omega

theorem Chained.lastEnd_le {size last : Nat} {lexemes : List (Nat × Nat)}
    (h : Chained size last lexemes) (hlast : last ≤ size) : lastEnd last lexemes ≤ size := by
  induction lexemes generalizing last with
  | nil => exact hlast
  | cons lexeme rest ih => exact ih h.2.2.2 h.2.2.1

/-! ### The tokens of a classified text -/

/-- The token of a lexeme: a keyword if the table has it, else text. -/
def wordToken (table : KeywordTable) (caseInsensitive : Bool) (word : String) : Token :=
  match table.lookup (if caseInsensitive then Unicode.lowercase word else word) with
  | some k => .keyword k.className word
  | none => .text word

/-- The tokens of lexemes and of the text before each of them. -/
def lexemeTokens (table : KeywordTable) (caseInsensitive : Bool) (text : Text) :
    Nat → List (Nat × Nat) → List Token
  | _, [] => []
  | last, lexeme :: rest =>
    .text (text.slice last lexeme.1) ::
      wordToken table caseInsensitive (text.slice lexeme.1 lexeme.2) ::
        lexemeTokens table caseInsensitive text lexeme.2 rest

section

variable (table : KeywordTable) (caseInsensitive : Bool)

@[simp] theorem content_wordToken (word : String) :
    (wordToken table caseInsensitive word).content = word := by
  rw [wordToken]
  split <;> rfl

theorem isLeaf_wordToken (word : String) :
    (wordToken table caseInsensitive word).isLeaf = true := by
  rw [wordToken]
  split <;> rfl

variable {table caseInsensitive} in
theorem isLeaf_of_mem_lexemeTokens {text : Text} {last : Nat} {lexemes : List (Nat × Nat)}
    {t : Token} (h : t ∈ lexemeTokens table caseInsensitive text last lexemes) :
    t.isLeaf = true := by
  induction lexemes generalizing last with
  | nil => cases h
  | cons lexeme rest ih =>
      rcases List.mem_cons.1 h with rfl | h
      · rfl
      · rcases List.mem_cons.1 h with rfl | h
        · exact isLeaf_wordToken table caseInsensitive _
        · exact ih h

theorem plainText_lexemeTokens {text : Text} {last : Nat} {lexemes : List (Nat × Nat)}
    (h : Chained text.size last lexemes) :
    plainText (lexemeTokens table caseInsensitive text last lexemes) =
      text.slice last (lastEnd last lexemes) := by
  induction lexemes generalizing last with
  | nil => rw [lastEnd, Text.slice_eq_empty text (Nat.min_le_left last text.size)]; rfl
  | cons lexeme rest ih =>
      obtain ⟨hlast, hlexeme, -, hrest⟩ := h
      simp only [lexemeTokens, plainText_cons, content_wordToken, Token.content_text, lastEnd]
      rw [ih hrest, text.slice_append_slice (Nat.le_of_lt hlexeme) hrest.le_lastEnd,
        text.slice_append_slice hlast (Nat.le_trans (Nat.le_of_lt hlexeme) hrest.le_lastEnd)]

theorem Classified.stream_addLexeme (text : Text) (c : Classified) (last : Nat)
    (lexeme : Nat × Nat) :
    (c.addLexeme table caseInsensitive text last lexeme).stream =
      c.stream.appendJoined [.text (text.slice last lexeme.1),
        wordToken table caseInsensitive (text.slice lexeme.1 lexeme.2)] := by
  simp only [addLexeme, wordToken]
  cases table.lookup (if caseInsensitive = true then Unicode.lowercase _ else _) with
  | none => rfl
  | some k => rfl

theorem Classified.addLexemes_eq (text : Text) (c : Classified) (last : Nat)
    (lexemes : List (Nat × Nat)) :
    (addLexemes table caseInsensitive text c last lexemes).1.stream =
        c.stream.appendJoined (lexemeTokens table caseInsensitive text last lexemes) ∧
      (addLexemes table caseInsensitive text c last lexemes).2 = lastEnd last lexemes := by
  induction lexemes generalizing c last with
  | nil => exact ⟨rfl, rfl⟩
  | cons lexeme rest ih =>
      obtain ⟨hstream, hlast⟩ := ih (c.addLexeme table caseInsensitive text last lexeme) lexeme.2
      refine ⟨?_, hlast⟩
      rw [addLexemes, hstream, stream_addLexeme, ← Stream.appendJoined_append]
      rfl

end

/-- The tokens of a text of the mode: its lexemes and the text between them, if the mode has
keywords. -/
def leavesOf (mode : CompiledMode) (content : String) (caseInsensitive : Bool) : List Token :=
  match mode.keywords with
  | none => [.text content]
  | some table =>
    let text := Text.ofString content
    let lexemes := (lexemesIn mode.lexemes text).1
    lexemeTokens table caseInsensitive text 0 lexemes ++
      [.text (text.slice (lastEnd 0 lexemes) text.size)]

section

variable {mode : CompiledMode} {content : String} {caseInsensitive : Bool}

theorem chained_lexemesIn (p : Pattern) (text : Text) : Chained text.size 0 (lexemesIn p text).1 :=
  chained_lexemesFrom p text _ 0 0

theorem isLeaf_of_mem_leavesOf {t : Token} (ht : t ∈ leavesOf mode content caseInsensitive) :
    t.isLeaf = true := by
  rw [leavesOf] at ht
  split at ht
  case h_1 => rw [List.mem_singleton.1 ht]; rfl
  case h_2 =>
    rcases List.mem_append.1 ht with ht | ht
    · exact isLeaf_of_mem_lexemeTokens ht
    · rw [List.mem_singleton.1 ht]
      rfl

theorem plainText_leavesOf : plainText (leavesOf mode content caseInsensitive) = content := by
  rw [leavesOf]
  split
  case h_1 => simp
  case h_2 table _ =>
    have hchain := chained_lexemesIn mode.lexemes (Text.ofString content)
    rw [plainText_append, plainText_lexemeTokens table caseInsensitive hchain, plainText_cons,
      plainText_nil, String.append_empty, Token.content_text,
      Text.slice_append_slice _ (Nat.zero_le _) (hchain.lastEnd_le (Nat.zero_le _)),
      Text.slice_ofString]

/-- Classifying a text that comes to its end adds its leaves. -/
theorem stream_of_classify {stream next : Stream} {relevance : Relevance}
    (h : classify mode content caseInsensitive stream = (next, .ok relevance)) :
    next = stream.appendJoined (leavesOf mode content caseInsensitive) := by
  cases hkeywords : mode.keywords with
  | none =>
      simp only [classify, hkeywords] at h
      cases h
      simp only [leavesOf, hkeywords]
      rfl
  | some table =>
      rcases hlexemes : lexemesIn mode.lexemes (Text.ofString content) with ⟨lexemes, fault⟩
      obtain ⟨hstream, hlast⟩ := Classified.addLexemes_eq table caseInsensitive
        (Text.ofString content) ⟨stream, 0⟩ 0 lexemes
      simp only [classify, hkeywords, hlexemes] at h
      cases fault with
      | some e => cases (Prod.mk.inj h).2
      | none =>
          obtain ⟨rfl, -⟩ := Prod.mk.inj h
          simp only [leavesOf, hkeywords, hlexemes]
          rw [Stream.appendJoined_append, ← hstream, ← hlast]
          rfl

/-- Classifying a text adds leaves that carry exactly the text. -/
theorem classify_ok {stream next : Stream} {relevance : Relevance}
    (h : classify mode content caseInsensitive stream = (next, .ok relevance)) :
    ∃ leaves, next = stream.appendJoined leaves ∧ (∀ t ∈ leaves, t.isLeaf = true) ∧
      plainText leaves = content :=
  ⟨_, stream_of_classify h, fun _ ht => isLeaf_of_mem_leavesOf ht, plainText_leavesOf⟩

end

end LexicalModes
