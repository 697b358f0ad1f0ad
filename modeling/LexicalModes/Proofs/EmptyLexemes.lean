import LexicalModes.Proofs.Bounds
import LexicalModes.Proofs.Runs

/-!
What becomes of the character after an empty match. A scan that meets an empty lexeme opens or
closes modes and stays where it is, or it moves past the character there. It does so where it is
stalled, and then the character is gathered; and where nothing begins or ends, and then the
character is in no chunk. So the character is kept exactly if the empty lexeme is recognised as a
begin or an end (`Scan.Recognises`). A search for keywords also moves past a character after an
empty match, but there the lexemes cut the text into parts that cover every position once
(`countP_cuts`), and a passed character is in the part between the lexemes around it.
-/

namespace LexicalModes

open Pattern

/-! ### Empty lexemes of a scan -/

namespace Scan

variable {g : CompiledGrammar} {ignoreIllegals : Bool} {text : Text} {s next : Scan}
  {lexeme : String} {offset : Nat}

variable (g) in
/-- A mode begins with the lexeme, or modes end with it. -/
def Recognises (s : Scan) (lexeme : String) : Prop :=
  (∃ found, beginning? g lexeme (s.top g).contains = .ok (some found)) ∨
    ∃ depth, ending? g lexeme s.stack.frames = .ok (some depth)

/-- A lexeme means nothing exactly if it is not recognised. -/
theorem recognises_iff_of_treatment {t : Treatment} (h : s.treatment g lexeme offset = .ok t) :
    s.Recognises g lexeme ↔ t ≠ .passes := by
  obtain ⟨begun, hbegin, h⟩ := bind_eq_ok.1 h
  cases begun with
  | some found =>
      refine iff_of_true (.inl ⟨found, hbegin⟩) ?_
      rw [← pure_eq_ok.1 h]
      split <;> simp
  | none =>
      obtain ⟨ended, hend, h⟩ := bind_eq_ok.1 h
      cases ended with
      | some depth =>
          refine iff_of_true (.inr ⟨depth, hend⟩) ?_
          rw [← pure_eq_ok.1 h]
          split <;> simp
      | none =>
          refine iff_of_false ?_ (not_not.2 (pure_eq_ok.1 h).symm)
          rintro (⟨found, hfound⟩ | ⟨depth, hdepth⟩)
          · rw [hbegin] at hfound
            cases hfound
          · rw [hend] at hdepth
            cases hdepth

/-- **An empty lexeme.** A scan that moves on at an empty lexeme moves past one character and leaves
all but the buffer as it is. The character is gathered if the lexeme is recognised, and else it is
not. -/
theorem buffer_of_dispatch_empty {c : Char} (hc : text[offset]? = some c)
    (h : s.dispatch g ignoreIllegals text "" offset = .ok next) (hmoves : next.index ≠ offset) :
    next.index = offset + 1 ∧ next.stack = s.stack ∧ next.events = s.events ∧
      (s.Recognises g "" → next.buffer = s.buffer.push c) ∧
      (¬s.Recognises g "" → next.buffer = s.buffer) := by
  rw [dispatch_eq] at h
  obtain ⟨t, ht, h⟩ := bind_eq_ok.1 h
  obtain ⟨_, -, h⟩ := bind_eq_ok.1 h
  rw [liftMatch_eq_ok] at ht
  rw [recognises_iff_of_treatment ht]
  obtain rfl := pure_eq_ok.1 h
  cases t with
  | opens child closer =>
      refine absurd ?_ hmoves
      rw [treated, index_enter]
      exact ite_self offset
  | closes depth =>
      refine absurd ?_ hmoves
      rw [treated, index_leave]
      exact ite_self offset
  | stepsOver =>
      refine ⟨rfl, rfl, rfl, fun _ => ?_, fun hnot => absurd (by simp) hnot⟩
      change s.buffer ++ text.slice offset (offset + 1) = _
      rw [Text.slice_succ hc, String.append_singleton]
  | passes => exact ⟨rfl, rfl, rfl, fun hnot => absurd rfl hnot, fun _ => String.append_empty⟩

end Scan

/-! ### Empty matches of a search for keywords -/

/-- Whether the position is in the part of a text. -/
def covers (position : Nat) (part : Nat × Nat) : Bool :=
  decide (part.1 ≤ position) && decide (position < part.2)

/-- Lexemes cut a text into parts that cover every position once. -/
theorem countP_cuts {size last : Nat} {lexemes : List (Nat × Nat)} (h : Chained size last lexemes)
    (position : Nat) :
    (cuts size last lexemes).countP (covers position) =
      if last ≤ position ∧ position < size then 1 else 0 := by
  induction lexemes generalizing last with
  | nil => simp [cuts, covers, List.countP_cons]
  | cons lexeme rest ih =>
      obtain ⟨hbefore, hlexeme, hinside, hrest⟩ := h
      rw [cuts, List.countP_cons, List.countP_cons, ih hrest]
      simp only [covers, Bool.and_eq_true, decide_eq_true_eq]
      split_ifs <;> omega

/-- The parts that a text is cut into to look for the keywords of the mode. -/
def partsOf (mode : CompiledMode) (content : String) : List (Nat × Nat) :=
  cuts (Text.ofString content).size 0
    (if mode.keywords.isSome then (lexemesIn mode.lexemes (Text.ofString content)).1 else [])

theorem countP_partsOf (mode : CompiledMode) {content : String} {position : Nat}
    (hposition : position < (Text.ofString content).size) :
    (partsOf mode content).countP (covers position) = 1 := by
  have hchained : Chained (Text.ofString content).size 0
      (if mode.keywords.isSome then (lexemesIn mode.lexemes (Text.ofString content)).1
        else []) := by
    split
    · exact chained_lexemesIn mode.lexemes _
    · exact trivial
  rw [partsOf, countP_cuts hchained, if_pos ⟨Nat.zero_le _, hposition⟩]

theorem map_content_leavesOf (mode : CompiledMode) (content : String) (caseInsensitive : Bool) :
    (leavesOf mode content caseInsensitive).map Token.content =
      (partsOf mode content).map fun part => (Text.ofString content).slice part.1 part.2 := by
  rw [leavesOf, partsOf]
  cases mode.keywords with
  | none => simp [cuts, Text.slice_ofString]
  | some table =>
      simp only [Option.isSome_some, if_true]
      rw [← content_lexemeTokens table caseInsensitive, List.map_append]
      rfl

/-- A search for keywords that comes to its end adds one leaf for each part of the text. -/
theorem exists_leaves_of_classify_ok {mode : CompiledMode} {content : String}
    {caseInsensitive : Bool} {stream next : Stream} {relevance : Relevance}
    (h : classify mode content caseInsensitive stream = (next, .ok relevance)) :
    ∃ leaves, next = stream.appendJoined leaves ∧
      leaves.map Token.content =
        (partsOf mode content).map fun part => (Text.ofString content).slice part.1 part.2 :=
  ⟨_, stream_of_classify h, map_content_leavesOf mode content caseInsensitive⟩

/-- **When a passed character is kept.** A scan that moves on at an empty lexeme before the end of
the text gathers the character there, once, exactly if the lexeme is recognised; otherwise the
character is lost. A search for keywords that comes to its end adds the text in parts, and every
character is in exactly one of them, whether or not the search met an empty match there. -/
theorem passed_character_kept_iff (g : CompiledGrammar) (ignoreIllegals : Bool) :
    (∀ (text : Text) (s next : Scan) (offset : Nat) (c : Char), text[offset]? = some c →
      s.dispatch g ignoreIllegals text "" offset = .ok next → next.index ≠ offset →
      next.index = offset + 1 ∧ next.stack = s.stack ∧ next.events = s.events ∧
        (next.buffer = s.buffer.push c ↔ s.Recognises g "") ∧
        (next.buffer = s.buffer ↔ ¬s.Recognises g "")) ∧
    ∀ (mode : CompiledMode) (content : String) (caseInsensitive : Bool) (stream next : Stream)
      (relevance : Relevance),
      classify mode content caseInsensitive stream = (next, .ok relevance) →
      ∃ (leaves : List Token) (parts : List (Nat × Nat)), next = stream.appendJoined leaves ∧
        leaves.map Token.content =
          parts.map (fun part => (Text.ofString content).slice part.1 part.2) ∧
        ∀ position < (Text.ofString content).size, parts.countP (covers position) = 1 := by
  refine ⟨?_, ?_⟩
  · intro text s next offset c hc hdispatch hmoves
    obtain ⟨hindex, hstack, hevents, hkept, hlost⟩ :=
      Scan.buffer_of_dispatch_empty hc hdispatch hmoves
    have hne : s.buffer.push c ≠ s.buffer := by
      intro heq
      have hlength := congrArg String.length heq
      rw [String.length_push] at hlength
      omega
    refine ⟨hindex, hstack, hevents, ⟨fun hbuffer => ?_, hkept⟩, fun hbuffer hknown => ?_, hlost⟩
    · by_contra hunknown
      exact hne (hbuffer.symm.trans (hlost hunknown))
    · exact hne ((hkept hknown).symm.trans hbuffer)
  · intro mode content caseInsensitive stream next relevance hclassify
    obtain ⟨leaves, hnext, hparts⟩ := exists_leaves_of_classify_ok hclassify
    exact ⟨leaves, partsOf mode content, hnext, hparts, fun _ => countP_partsOf mode⟩

/-- A language with a mode that begins and ends, without a character, where a line does, and with
lexemes that may be empty. -/
def sampleStalled : Language where
  name := "stalled"
  grammar := ⟨#[{ contains := [.mode 1], keywords := some (.plain "b"), lexemes := some "b*" },
    { beginPattern := some "^|$", endPattern := some "^|$", lexemes := some "z" }], by decide⟩

/-- The mode is opened before the first character and the scan is stalled there, so it steps over
the character. The search for keywords meets an empty match there, and the character is in one part.
-/
theorem passed_character_kept_iff_sample :
    ∃ g, sampleStalled.compile = .ok g ∧
      (∃ s next, Scan.Reaches g false (Text.ofString "ab") (Scan.initial g .empty) s ∧
        s.dispatch g false (Text.ofString "ab") "" 0 = .ok next ∧ next.index = 1 ∧
        next.buffer = s.buffer.push 'a' ∧ s.Recognises g "") ∧
      ∃ next relevance leaves, ∃ parts : List (Nat × Nat),
        classify (g.mode 0) "ab" false .empty = (next, .ok relevance) ∧
        next = Stream.empty.appendJoined leaves ∧
        leaves.map Token.content =
          parts.map (fun part => (Text.ofString "ab").slice part.1 part.2) ∧
        parts.countP (covers 0) = 1 := by
  obtain ⟨g, hcompile, hfacts⟩ := exists_of_any (show sampleStalled.compile.toOption.any
    (fun g =>
      ((Scan.run g false (Text.ofString "ab") 1 (Scan.initial g .empty)).1.dispatch g false
        (Text.ofString "ab") "" 0).toOption.any (fun next => next.index == 1 &&
          next.buffer == (Scan.run g false (Text.ofString "ab") 1
            (Scan.initial g .empty)).1.buffer.push 'a') &&
      (classify (g.mode 0) "ab" false .empty).2.isOk) = true by decide +kernel)
  rw [Bool.and_eq_true] at hfacts
  obtain ⟨next, hdispatch, hnext⟩ := exists_of_any hfacts.1
  obtain ⟨relevance, hrelevance⟩ := exists_of_isOk hfacts.2
  simp only [Bool.and_eq_true, beq_iff_eq] at hnext
  obtain ⟨hscan, hclassify⟩ := passed_character_kept_iff g false
  refine ⟨g, hcompile, ⟨_, next, Scan.reaches_run 1 _, hdispatch, hnext.1, hnext.2, ?_⟩, ?_⟩
  · obtain ⟨-, -, -, hkept, -⟩ := hscan _ _ _ 0 'a' rfl hdispatch (by omega)
    exact hkept.1 hnext.2
  · obtain ⟨leaves, parts, hleaves, hparts, hcovers⟩ :=
      hclassify (g.mode 0) "ab" false .empty _ relevance (Prod.ext rfl hrelevance)
    exact ⟨_, relevance, leaves, parts, Prod.ext rfl hrelevance, hleaves, hparts,
      hcovers 0 (by decide)⟩

/-- A language with a mode that begins before a certain character and does not take it in. -/
def sampleAhead : Language where
  name := "ahead"
  grammar := ⟨#[{ contains := [.mode 1], lexemes := some "z" },
    { className := some "mark", beginPattern := some "(?=x)", endPattern := some "y",
      lexemes := some "z" }], by decide⟩

/-- The terminator matches before the character, but the begin of the mode does not match the empty
lexeme, and the scan moves on without the character. -/
theorem passed_character_lost :
    ∃ g, sampleAhead.compile = .ok g ∧ (Text.ofString "axb")[1]? = some 'x' ∧
      (∃ next, Scan.dispatch g { stack := .empty, buffer := "a" } false (Text.ofString "axb") "" 1 =
          .ok next ∧ next.index = 2 ∧ next.buffer = "a") ∧
      (scan g Scan.fuelFor false .empty "axb").events = [.chunk 0 "ab"] := by
  obtain ⟨g, hcompile, hfacts⟩ := exists_of_any (show sampleAhead.compile.toOption.any
    (fun g =>
      (Scan.dispatch g { stack := .empty, buffer := "a" } false (Text.ofString "axb") ""
        1).toOption.any (fun next => next.index == 2 && next.buffer == "a") &&
      (scan g Scan.fuelFor false .empty "axb").events == [.chunk 0 "ab"]) = true by decide +kernel)
  simp only [Bool.and_eq_true, beq_iff_eq] at hfacts
  obtain ⟨next, hdispatch, hnext⟩ := exists_of_any hfacts.1
  simp only [Bool.and_eq_true, beq_iff_eq] at hnext
  exact ⟨g, hcompile, rfl, ⟨next, hdispatch, hnext⟩, hfacts.2⟩

end LexicalModes
