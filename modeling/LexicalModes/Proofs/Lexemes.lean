import Mathlib.Data.List.Induction
import LexicalModes.Proofs.Scoring

/-!
What a search for keywords does to a text. The matches of the lexeme pattern that follow one
another are told by a relation without fuel (`MatchSequence`); the search has fuel enough for all
of them, since every match moves it on or moves on the end of the last lexeme. The matches that are
not empty cut the text into pieces, and the tokens that are added are those pieces, a keyword for
each match that is in the table and text for all else. Earlier tokens stay, but a text at their end
takes in a text that comes first (`Prolongs`).
-/

namespace LexicalModes

open Pattern

/-! ### Matches in a row -/

/-- The matches of a pattern that are found one after another, from a position on, until there is
no more or a search is given up. After an empty match the search goes on one character further, and
after another one at its end; no match starts before the end of the latest that was not empty. -/
inductive MatchSequence (p : Pattern) (text : Text) :
    Nat → Nat → List (Nat × Nat) → Option MatchError → Prop
  | finished {last position : Nat} : p.findAfter? text last position = .ok none →
      MatchSequence p text last position [] none
  | givenUp {last position : Nat} {e : MatchError} :
      p.findAfter? text last position = .error e → MatchSequence p text last position [] (some e)
  | empty {last position : Nat} {span : Span last text.size} {rest : List (Nat × Nat)}
      {fault : Option MatchError} : p.findAfter? text last position = .ok (some span) →
      span.start = span.stop → MatchSequence p text last (span.stop + 1) rest fault →
      MatchSequence p text last position ((span.start, span.stop) :: rest) fault
  | lexeme {last position : Nat} {span : Span last text.size} {rest : List (Nat × Nat)}
      {fault : Option MatchError} : p.findAfter? text last position = .ok (some span) →
      span.start < span.stop → MatchSequence p text span.stop span.stop rest fault →
      MatchSequence p text last position ((span.start, span.stop) :: rest) fault

/-- The matches that are not empty. -/
def nonemptyMatches (found : List (Nat × Nat)) : List (Nat × Nat) :=
  found.filter fun m => decide (m.1 < m.2)

section

variable {p : Pattern} {text : Text} {last position : Nat}

theorem MatchSequence.unique {found others : List (Nat × Nat)} {fault other : Option MatchError}
    (h : MatchSequence p text last position found fault)
    (h' : MatchSequence p text last position others other) : others = found ∧ other = fault := by
  induction h generalizing others other with
  | finished hnone => cases h' <;> simp_all
  | givenUp herror => cases h' <;> simp_all
  | empty hfound hempty _ ih =>
      cases h' with
      | finished hnone => simp_all
      | givenUp herror => simp_all
      | empty hother _ hrest =>
          cases Option.some.inj (Except.ok.inj (hfound.symm.trans hother))
          obtain ⟨rfl, rfl⟩ := ih hrest
          exact ⟨rfl, rfl⟩
      | lexeme hother hlt _ =>
          cases Option.some.inj (Except.ok.inj (hfound.symm.trans hother))
          omega
  | lexeme hfound hlt _ ih =>
      cases h' with
      | finished hnone => simp_all
      | givenUp herror => simp_all
      | empty hother hempty _ =>
          cases Option.some.inj (Except.ok.inj (hfound.symm.trans hother))
          omega
      | lexeme hother _ hrest =>
          cases Option.some.inj (Except.ok.inj (hfound.symm.trans hother))
          obtain ⟨rfl, rfl⟩ := ih hrest
          exact ⟨rfl, rfl⟩

end

/-- Every match leaves less to do: what is left of the text to search, and what is left of it after
the last lexeme, are together the measure. -/
theorem exists_matchSequence (p : Pattern) (text : Text) (fuel last position : Nat)
    (hposition : position ≤ text.size + 1)
    (hfuel : text.size + 2 - position + (text.size - last) ≤ fuel) :
    ∃ found, MatchSequence p text last position found (lexemesFrom p text fuel last position).2 ∧
      nonemptyMatches found = (lexemesFrom p text fuel last position).1 := by
  induction fuel generalizing last position with
  | zero => omega
  | succ fuel ih =>
      rw [lexemesFrom]
      split
      case h_1 e herror => exact ⟨[], .givenUp herror, rfl⟩
      case h_2 hnone => exact ⟨[], .finished hnone, rfl⟩
      case h_3 span hfound =>
        have hle := Pattern.le_stop_of_findAfter? hfound
        have hbounds := span.stop_le_size
        have hlow := span.low_le_start
        have hordered := span.start_le_stop
        by_cases hempty : span.start = span.stop
        · rw [if_pos hempty]
          obtain ⟨found, hrest, hlexemes⟩ :=
            ih last (span.stop + 1) (by omega) (by omega)
          refine ⟨(span.start, span.stop) :: found, .empty hfound hempty hrest, ?_⟩
          rw [← hlexemes]
          simp [nonemptyMatches, hempty]
        · rw [if_neg hempty]
          have hlt : span.start < span.stop := by omega
          obtain ⟨found, hrest, hlexemes⟩ :=
            ih span.stop span.stop (by omega) (by omega)
          refine ⟨(span.start, span.stop) :: found, .lexeme hfound hlt hrest, ?_⟩
          change _ = (span.start, span.stop) :: (lexemesFrom p text fuel span.stop span.stop).1
          rw [← hlexemes]
          simp [nonemptyMatches, hlt]

/-- The search for lexemes comes to its own end. -/
theorem matchSequence_lexemesIn (p : Pattern) (text : Text) :
    ∃ found, MatchSequence p text 0 0 found (lexemesIn p text).2 ∧
      nonemptyMatches found = (lexemesIn p text).1 :=
  exists_matchSequence p text _ 0 0 (by omega) (by omega)

/-! ### Tokens behind tokens -/

/-- Whether the token is anything but a text. -/
def Token.isMarked : Token → Bool
  | .text _ => false
  | .keyword _ _ | .begins _ | .ends _ => true

/-- The tokens are the earlier ones and those added, or the earlier ones ended in a text, to which
more was joined. -/
def Prolongs (earlier added tokens : List Token) : Prop :=
  tokens = earlier ++ added ∨ ∃ front content more,
    earlier = front ++ [.text content] ∧ tokens = front ++ .text (content ++ more) :: added

theorem Prolongs.concat {earlier added tokens : List Token}
    (h : Prolongs earlier added tokens) (t : Token) :
    Prolongs earlier (added ++ [t]) (tokens ++ [t]) := by
  rcases h with rfl | ⟨front, content, more, rfl, rfl⟩
  · exact .inl (List.append_assoc _ _ _)
  · exact .inr ⟨front, content, more, rfl, by simp⟩

/-- More text behind tokens is joined to the last of those added or, if none was, of the earlier
ones. -/
theorem Prolongs.lengthen {earlier added front : List Token} {content : String}
    (h : Prolongs earlier added (front ++ [.text content])) (more : String) :
    ∃ next, Prolongs earlier next (front ++ [.text (content ++ more)]) ∧
      next.filter Token.isMarked = added.filter Token.isMarked := by
  rcases List.eq_nil_or_concat added with rfl | ⟨init, t, rfl⟩
  · refine ⟨[], ?_, rfl⟩
    rcases h with heq | ⟨first, before, joined, rfl, heq⟩
    · rw [List.append_nil] at heq
      exact .inr ⟨front, content, more, heq.symm, rfl⟩
    · obtain ⟨rfl, hlast⟩ := List.append_inj' heq rfl
      cases hlast
      exact .inr ⟨front, before, joined ++ more, rfl, by rw [String.append_assoc]⟩
  · rw [List.concat_eq_append] at h ⊢
    refine ⟨init ++ [.text (content ++ more)], ?_, ?_⟩
    · rcases h with heq | ⟨first, before, joined, rfl, heq⟩
      · rw [← List.append_assoc] at heq
        obtain ⟨rfl, -⟩ := List.append_inj' heq rfl
        exact .inl (List.append_assoc _ _ _)
      · rw [← List.cons_append, ← List.append_assoc] at heq
        obtain ⟨rfl, -⟩ := List.append_inj' heq rfl
        exact .inr ⟨first, before, joined, rfl, by simp⟩
    · have ht : t = .text content := by
        rcases h with heq | ⟨first, before, joined, -, heq⟩
        · rw [← List.append_assoc] at heq
          cases List.append_inj_right' heq rfl
          rfl
        · rw [← List.cons_append, ← List.append_assoc] at heq
          cases List.append_inj_right' heq rfl
          rfl
      rw [ht, List.filter_append, List.filter_append]
      rfl

/-- Tokens that are joined to a stream continue its tokens, with the same ones among them that are
no texts. -/
theorem exists_prolongs_appendJoined (s : Stream) (tokens : List Token) :
    ∃ added, Prolongs s.toList added (s.appendJoined tokens).toList ∧
      added.filter Token.isMarked = tokens.filter Token.isMarked := by
  induction tokens using List.reverseRecOn with
  | nil => exact ⟨[], .inl (List.append_nil _).symm, rfl⟩
  | append_singleton tokens t ih =>
      obtain ⟨added, hadded, hkeywords⟩ := ih
      rw [Stream.appendJoined_append, List.filter_append, ← hkeywords]
      have hpush : ∀ next : List Token, next = (s.appendJoined tokens).toList ++ [t] →
          ∃ others, Prolongs s.toList others next ∧
            others.filter Token.isMarked =
              added.filter Token.isMarked ++ [t].filter Token.isMarked := by
        rintro next rfl
        exact ⟨added ++ [t], hadded.concat t, List.filter_append _ _⟩
      cases t with
      | text content =>
          rcases Stream.pushText_cases (s.appendJoined tokens) content with
            ⟨-, hsame⟩ | ⟨front, before, hfront, hjoined⟩ | hnew
          · refine ⟨added, ?_, by simp [Token.isMarked]⟩
            change Prolongs _ _ ((s.appendJoined tokens).pushText content).toList
            rw [hsame]
            exact hadded
          · rw [hfront] at hadded
            obtain ⟨next, hnext, hsame⟩ := hadded.lengthen content
            refine ⟨next, ?_, by simp [hsame, Token.isMarked]⟩
            change Prolongs _ _ ((s.appendJoined tokens).pushText content).toList
            rw [hjoined]
            exact hnext
          · exact hpush _ hnew
      | keyword className content => exact hpush _ (Stream.toList_push _ _)
      | begins scope => exact hpush _ (Stream.toList_push _ _)
      | ends scope => exact hpush _ (Stream.toList_push _ _)

/-! ### Keywords among the matches -/

/-- The words of the text that are in the mode's table, one for each such match, with what the
table says of them. -/
def keywordsAmong (mode : CompiledMode) (caseInsensitive : Bool) (text : Text)
    (found : List (Nat × Nat)) : List (String × Keyword) :=
  match mode.keywords with
  | none => []
  | some table =>
    found.filterMap fun m =>
      let word := text.slice m.1 m.2
      (table.lookup (if caseInsensitive then Unicode.lowercase word else word)).map (word, ·)

theorem filter_isMarked_lexemeTokens (table : KeywordTable) (caseInsensitive : Bool)
    (text : Text) (last : Nat) (lexemes : List (Nat × Nat)) :
    (lexemeTokens table caseInsensitive text last lexemes).filter Token.isMarked =
      (lexemes.filterMap fun m =>
        let word := text.slice m.1 m.2
        (table.lookup (if caseInsensitive then Unicode.lowercase word else word)).map
          fun k => (word, k)).map fun hit => .keyword hit.2.className hit.1 := by
  induction lexemes generalizing last with
  | nil => rfl
  | cons lexeme rest ih =>
      rw [lexemeTokens, List.filter_cons_of_neg (by simp [Token.isMarked]), List.filterMap_cons]
      simp only [wordToken]
      cases table.lookup (if caseInsensitive = true then Unicode.lowercase _ else _) with
      | none => rw [List.filter_cons_of_neg (by simp [Token.isMarked]), ih]; rfl
      | some k => rw [List.filter_cons_of_pos rfl, ih]; rfl

theorem map_snd_keywordsAmong {mode : CompiledMode} {caseInsensitive : Bool} {content : String}
    {found : List (Nat × Nat)}
    (hfound : nonemptyMatches found = (lexemesIn mode.lexemes (Text.ofString content)).1) :
    (keywordsAmong mode caseInsensitive (Text.ofString content) (nonemptyMatches found)).map
        Prod.snd = keywordHits mode caseInsensitive content := by
  rw [keywordsAmong, keywordHits, hfound]
  cases mode.keywords with
  | none => rfl
  | some table =>
      simp only [List.map_filterMap, Option.map_map]
      apply List.filterMap_congr
      intro lexeme _
      exact Option.map_id'

theorem filter_isMarked_leavesOf (mode : CompiledMode) (content : String)
    (caseInsensitive : Bool) :
    (leavesOf mode content caseInsensitive).filter Token.isMarked =
      (keywordsAmong mode caseInsensitive (Text.ofString content)
        (lexemesIn mode.lexemes (Text.ofString content)).1).map
          fun hit => .keyword hit.2.className hit.1 := by
  rw [leavesOf, keywordsAmong]
  cases mode.keywords with
  | none => rfl
  | some table =>
      simp only [List.filter_append, filter_isMarked_lexemeTokens]
      exact List.append_nil _

/-- The leaves of a search that comes to its end carry the keywords among the matches. -/
theorem exists_leaves_with_keywords {mode : CompiledMode} {caseInsensitive : Bool}
    {content : String} {stream next : Stream} {relevance : Relevance} {found : List (Nat × Nat)}
    (hfound : nonemptyMatches found = (lexemesIn mode.lexemes (Text.ofString content)).1)
    (h : classify mode content caseInsensitive stream = (next, .ok relevance)) :
    ∃ leaves, next = stream.appendJoined leaves ∧ leaves.filter Token.isMarked =
      (keywordsAmong mode caseInsensitive (Text.ofString content) (nonemptyMatches found)).map
        fun hit => .keyword hit.2.className hit.1 := by
  refine ⟨_, stream_of_classify h, ?_⟩
  rw [hfound, filter_isMarked_leavesOf]

/-- A search for keywords is given up exactly if the search for a lexeme is. -/
theorem classify_eq_error_iff {mode : CompiledMode} {caseInsensitive : Bool} {content : String}
    {stream : Stream} {e : MatchError} :
    (classify mode content caseInsensitive stream).2 = .error e ↔
      mode.keywords.isSome = true ∧
        (lexemesIn mode.lexemes (Text.ofString content)).2 = some e := by
  rw [classify]
  cases mode.keywords with
  | none => simp
  | some table =>
      simp only [Option.isSome_some, true_and]
      split <;> simp_all

/-- **Searching for keywords.** The lexeme pattern has one list of successive matches, and the
search is given up exactly if one of these searches is. Otherwise the tokens grow by exactly the
text; the earlier ones are kept but for a text at their end, to which text may be joined; those
added, texts apart, are keywords, one for each match that is not empty and in the table, in order
and as they are spelled in the text; and the relevance is the sum of their weights, stopped at the
largest score. -/
theorem classify_partitions (mode : CompiledMode) (content : String) (caseInsensitive : Bool)
    (stream : Stream) :
    ∃ found fault,
      (∀ others other, MatchSequence mode.lexemes (Text.ofString content) 0 0 others other ↔
        others = found ∧ other = fault) ∧
      (∀ e, (classify mode content caseInsensitive stream).2 = .error e ↔
        mode.keywords.isSome = true ∧ fault = some e) ∧
      ∀ next relevance,
        classify mode content caseInsensitive stream = (next, .ok relevance) →
        plainText next.toList = plainText stream.toList ++ content ∧
        (∃ added, Prolongs stream.toList added next.toList ∧ added.filter Token.isMarked =
          (keywordsAmong mode caseInsensitive (Text.ofString content)
            (nonemptyMatches found)).map fun hit => .keyword hit.2.className hit.1) ∧
        relevance = min (2 ^ 32 - 1) ((keywordsAmong mode caseInsensitive
          (Text.ofString content) (nonemptyMatches found)).map fun hit => hit.2.weight).sum := by
  obtain ⟨found, hsuccessive, hfound⟩ :=
    matchSequence_lexemesIn mode.lexemes (Text.ofString content)
  refine ⟨found, _, fun others other => ⟨hsuccessive.unique, ?_⟩, fun e => classify_eq_error_iff,
    ?_⟩
  · rintro ⟨rfl, rfl⟩
    exact hsuccessive
  · intro next relevance hclassify
    refine ⟨?_, ?_, ?_⟩
    · obtain ⟨leaves, rfl, -, hplain⟩ := classify_ok hclassify
      rw [Stream.plainText_appendJoined, hplain]
    · obtain ⟨leaves, rfl, hkeywords⟩ := exists_leaves_with_keywords hfound hclassify
      rw [← hkeywords]
      exact exists_prolongs_appendJoined stream leaves
    · rw [relevance_of_classify hclassify, ← map_snd_keywordsAmong hfound, Relevance.clamp,
        Nat.min_comm, keywordSum, List.map_map]
      rfl

/-- A language with lexemes that may be empty, and a keyword that scores all there is. -/
def sampleWeighted : Language where
  name := "weighted"
  grammar := ⟨#[{ keywords := some (.plain "b|4294967295 bb"), lexemes := some "b*" }], by decide⟩

/-- The text before the first lexeme is joined to the text that was there, and the two keywords
together score more than there is. -/
theorem classify_partitions_sample :
    ∃ g next relevance, sampleWeighted.compile = .ok g ∧
      classify (g.mode 0) "ab bb" false ⟨[.text "x"]⟩ = (next, .ok relevance) ∧
      plainText next.toList = "xab bb" ∧
      (∃ added, Prolongs [.text "x"] added next.toList ∧ added.filter Token.isMarked =
        [.keyword "keyword" "b", .keyword "keyword" "bb"]) ∧
      relevance = 2 ^ 32 - 1 := by
  obtain ⟨g, hcompile, hfacts⟩ := exists_of_any (show sampleWeighted.compile.toOption.any
    (fun g => (classify (g.mode 0) "ab bb" false ⟨[.text "x"]⟩).2.isOk &&
      keywordsAmong (g.mode 0) false (Text.ofString "ab bb")
        (lexemesIn (g.mode 0).lexemes (Text.ofString "ab bb")).1 ==
          [("b", ⟨"keyword", 4294967295⟩), ("bb", ⟨"keyword", 1⟩)]) = true by decide +kernel)
  rw [Bool.and_eq_true, beq_iff_eq] at hfacts
  obtain ⟨relevance, hrelevance⟩ := exists_of_isOk hfacts.1
  obtain ⟨found, hfound, hlexemes⟩ :=
    matchSequence_lexemesIn (g.mode 0).lexemes (Text.ofString "ab bb")
  obtain ⟨others, fault, hunique, -, hok⟩ :=
    classify_partitions (g.mode 0) "ab bb" false ⟨[.text "x"]⟩
  obtain ⟨rfl, rfl⟩ := (hunique _ _).1 hfound
  have hclassify : classify (g.mode 0) "ab bb" false ⟨[.text "x"]⟩ =
      ((classify (g.mode 0) "ab bb" false ⟨[.text "x"]⟩).1, .ok relevance) :=
    Prod.ext rfl hrelevance
  obtain ⟨hplain, hadded, hsum⟩ := hok _ _ hclassify
  rw [hlexemes, hfacts.2] at hadded hsum
  exact ⟨g, _, relevance, hcompile, hclassify, hplain, hadded, hsum⟩

end LexicalModes
