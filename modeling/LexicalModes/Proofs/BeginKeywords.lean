import LexicalModes.Proofs.Inheritance
import LexicalModes.Proofs.Keywords

/-!
Modes that begin with a keyword. Their words are read twice: joined by bars they are the
alternatives of the pattern that begins the mode, and taken apart at their bars they fill its
keyword table. The first reading keeps the weights, so the alternatives are the lexemes and, of
every word with a bar, what comes behind it.
-/

namespace LexicalModes

/-- The texts between the bars of an alternation. -/
def alternativesOf (body : String) : List String :=
  (body.toList.splitOn '|').map String.ofList

theorem alternativesOf_append_bar (front rest : String) :
    alternativesOf (front ++ "|" ++ rest) = alternativesOf front ++ alternativesOf rest := by
  have hchars : (front ++ "|" ++ rest).toList = front.toList ++ '|' :: rest.toList := by simp
  rw [alternativesOf, hchars, List.splitOn, List.splitOnP_append_cons _ _ (by simp),
    List.map_append]
  rfl

theorem alternativesOf_plain {body : String} (h : '|' ∉ body.toList) :
    alternativesOf body = [body] := by
  have hno : ∀ c ∈ body.toList, (c == '|') = false := fun c hc => by simpa using bne_bar h c hc
  rw [alternativesOf, List.splitOn, List.splitOnP_eq_singleton hno, List.map_singleton,
    String.ofList_toList]

theorem mem_alternativesOf_intercalate {words : List String} (hwords : words ≠ []) {x : String} :
    x ∈ alternativesOf ("|".intercalate words) ↔ ∃ word ∈ words, x ∈ alternativesOf word := by
  induction words with
  | nil => exact absurd rfl hwords
  | cons word rest ih =>
      cases rest with
      | nil => simp
      | cons next others =>
          rw [String.intercalate_cons_cons, alternativesOf_append_bar, List.mem_append,
            ih (List.cons_ne_nil _ _)]
          simp

/-- A suffix that gives a weight has no bar in it. -/
theorem GivesWeight.bar_notMem {suffix : String} {weight : Nat} (h : GivesWeight suffix weight) :
    '|' ∉ suffix.toList := by
  rcases h with ⟨rfl, -⟩ | ⟨⟨digits, -, hdigits, hchars, -⟩, -⟩
  · simp
  · intro hbar
    have hmem : '|' ∈ digits := by
      rcases hchars with heq | heq
      · rwa [heq] at hbar
      · simpa [heq] using hbar
    exact absurd (hdigits _ hmem) (by decide)

/-- The alternatives that a word gives are its lexeme and what comes behind its bar. -/
theorem mem_alternativesOf_word {word : String} (hword : ¬IllWeighted word) {x : String} :
    x ∈ alternativesOf word ↔ (∃ suffix, SplitsAtBar word x suffix) ∨
      ∃ lexeme, '|' ∉ lexeme.toList ∧ word = lexeme ++ "|" ++ x := by
  obtain ⟨lexeme, suffix, hsplit⟩ := exists_splitsAtBar word
  have hlexeme : (∃ suffix, SplitsAtBar word x suffix) ↔ x = lexeme := by
    constructor
    · rintro ⟨other, hother⟩
      exact (hsplit.unique hother).1
    · rintro rfl
      exact ⟨suffix, hsplit⟩
  -- A second bar would stand in the suffix, which then gives no weight.
  have hbar : '|' ∉ suffix.toList := by
    intro hmem
    exact hword ⟨lexeme, suffix, hsplit, fun weight hgives => hgives.bar_notMem hmem⟩
  rw [hlexeme]
  cases hsplit with
  | bare hno =>
      rw [alternativesOf_plain hno, List.mem_singleton, or_iff_left]
      rintro ⟨lexeme, -, rfl⟩
      simp at hno
  | barred suffix hno =>
      rw [alternativesOf_append_bar, alternativesOf_plain hno, alternativesOf_plain hbar,
        List.mem_append, List.mem_singleton, List.mem_singleton]
      refine or_congr_right ?_
      constructor
      · rintro rfl
        exact ⟨lexeme, hno, rfl⟩
      · rintro ⟨other, hother, heq⟩
        have hsame : SplitsAtBar (lexeme ++ "|" ++ suffix) other x := heq ▸ .barred x hother
        exact ((SplitsAtBar.barred suffix hno).unique hsame).2

section

variable {list : String} {t : KeywordTable} {x : String}

theorem Keywords.words_plain : (Keywords.plain list).words false =
    (splitWords list).map (Keywords.plainClass, ·) := by
  simp [Keywords.words, Keywords.lists]

theorem Keywords.exists_lookup_plain (h : (Keywords.plain list).table false = .ok t) :
    (∃ k, t.lookup x = some k) ↔ ∃ word ∈ splitWords list, ∃ suffix, SplitsAtBar word x suffix := by
  obtain ⟨hwins, -⟩ := Keywords.lastWins_of_table h
  have hnone := hwins.lookup_eq_none x
  rw [Keywords.words_plain, List.forall_mem_map] at hnone
  rw [← Option.ne_none_iff_exists', ne_eq, hnone]
  push Not
  rfl

/-- The alternatives of a declaration that has a table are its lexemes and what stands behind the
bars of its words, or the empty text if there are no words. -/
theorem mem_alternativesOf_words (h : (Keywords.plain list).table false = .ok t) :
    x ∈ alternativesOf ("|".intercalate (splitWords list)) ↔
      (∃ k, t.lookup x = some k) ∨
      (∃ lexeme, '|' ∉ lexeme.toList ∧ lexeme ++ "|" ++ x ∈ splitWords list) ∨
      splitWords list = [] ∧ x = "" := by
  obtain ⟨-, hgood⟩ := Keywords.lastWins_of_table h
  rw [Keywords.words_plain, List.forall_mem_map] at hgood
  rw [Keywords.exists_lookup_plain h]
  by_cases hempty : splitWords list = []
  · simp [hempty, alternativesOf_plain]
  · rw [mem_alternativesOf_intercalate hempty]
    simp only [hempty, false_and, or_false]
    constructor
    · rintro ⟨word, hword, hx⟩
      rcases (mem_alternativesOf_word (hgood word hword)).1 hx with hx | ⟨lexeme, hno, rfl⟩
      · exact .inl ⟨word, hword, hx⟩
      · exact .inr ⟨lexeme, hno, hword⟩
    · rintro (⟨word, hword, hx⟩ | ⟨lexeme, hno, hword⟩)
      · exact ⟨word, hword, (mem_alternativesOf_word (hgood word hword)).2 (.inl hx)⟩
      · exact ⟨_, hword, (mem_alternativesOf_word (hgood _ hword)).2 (.inr ⟨lexeme, hno, rfl⟩)⟩

end

/-- **The two readings of the words that begin a mode.** In a compiled grammar that minds case, a
mode with such words and no keywords has a table, and a begin whose alternatives are the words
joined by bars. These are the lexemes of the table, what stands behind the bar of a word, and the
empty text if there are no words; so they are exactly the lexemes if and only if there are words
and all that stands behind a bar is a lexeme too. -/
theorem begin_alternatives {g : Grammar} {compiled : CompiledGrammar}
    (hok : g.compile false = .ok compiled) :
    ∃ origin, compiled.Traces g origin ∧ ∀ index < compiled.size,
      ∃ mode, (origin index).source g = some mode ∧ ∀ list, mode.beginKeywords = some list →
        mode.keywords = none → ∃ table body, (compiled.mode index).keywords = some table ∧
          (∀ b, (compiled.mode index).begins = some b → b.source = "\\b(" ++ body ++ ")\\b") ∧
          (∀ x, x ∈ alternativesOf body ↔ (∃ k, table.lookup x = some k) ∨
            (∃ lexeme, '|' ∉ lexeme.toList ∧ lexeme ++ "|" ++ x ∈ splitWords list) ∨
            splitWords list = [] ∧ x = "") ∧
          ((∀ x, x ∈ alternativesOf body ↔ ∃ k, table.lookup x = some k) ↔
            splitWords list ≠ [] ∧ ∀ lexeme suffix, '|' ∉ lexeme.toList →
              lexeme ++ "|" ++ suffix ∈ splitWords list → ∃ k, table.lookup suffix = some k) := by
  obtain ⟨-, origins, h, hroot⟩ := Grammar.placed_of_compile hok
  refine ⟨originAt origins, h.traces hroot, ?_⟩
  intro index hindex
  obtain ⟨p, hp⟩ := h.exists_origin hindex
  obtain ⟨mode, inherited, hsource, -, htraits⟩ := (h.started_mode hp).traits
  rw [originAt_eq hp]
  refine ⟨mode, hsource, ?_⟩
  intro list hlist hnone
  obtain ⟨-, -, hbegins, -, -, hkeywords, -⟩ := Mode.compileTraits_eq_ok htraits
  rw [Mode.keywordList, hnone, hlist] at hkeywords
  obtain ⟨table, htable, hsome⟩ := map_eq_ok.1 hkeywords
  have halternatives := fun x => mem_alternativesOf_words htable (x := x)
  refine ⟨table, "|".intercalate (splitWords list), hsome.symm, ?_, halternatives, ?_⟩
  · intro b hb
    have hbegin : (compiled.mode index).shell.begins.map (·.source) = some b.source := by
      rw [show (compiled.mode index).shell.begins = some b from hb, Option.map_some]
    obtain ⟨_, -, hb'⟩ := Option.map_eq_some_iff.1 (hbegins.symm.trans hbegin)
    rw [← hb', Mode.beginSource, hlist]
  · constructor
    · intro hexact
      constructor
      · intro hempty
        obtain ⟨k, hk⟩ := (hexact "").1 ((halternatives "").2 (.inr (.inr ⟨hempty, rfl⟩)))
        obtain ⟨word, hword, -⟩ := (Keywords.exists_lookup_plain htable).1 ⟨k, hk⟩
        rw [hempty] at hword
        cases hword
      · intro lexeme suffix hno hmem
        exact (hexact suffix).1 ((halternatives suffix).2 (.inr (.inl ⟨lexeme, hno, hmem⟩)))
    · rintro ⟨hne, hsuffixes⟩ x
      rw [halternatives x]
      refine ⟨?_, .inl⟩
      rintro (hlookup | ⟨lexeme, hno, hmem⟩ | ⟨hempty, -⟩)
      · exact hlookup
      · exact hsuffixes lexeme x hno hmem
      · exact absurd hempty hne

/-- A mode inside another that begins with these words. -/
def sampleBegin (list : String) : Grammar :=
  ⟨#[{ contains := [.mode 1], lexemes := some "z" },
    { className := some "c", beginKeywords := some list, lexemes := some "z" }], by simp⟩

/-- Words without weights are the alternatives and the lexemes. -/
theorem begin_alternatives_sample :
    ∃ compiled table, (sampleBegin "if else").compile false = .ok compiled ∧
      (compiled.mode 1).keywords = some table ∧
      (compiled.mode 1).begins.map (·.source) = some "\\b(if|else)\\b" ∧
      ∀ x, x ∈ alternativesOf "if|else" ↔ ∃ k, table.lookup x = some k := by
  obtain ⟨compiled, hok, hfacts⟩ := exists_of_any
    (show ((sampleBegin "if else").compile false).toOption.any (fun c => c.size == 2 &&
      (c.mode 0).contains == [1] &&
      (c.mode 1).begins.map (·.source) == some "\\b(if|else)\\b") = true by decide +kernel)
  simp only [Bool.and_eq_true, beq_iff_eq] at hfacts
  obtain ⟨⟨hsize, hcontains⟩, hbegin⟩ := hfacts
  obtain ⟨origin, htraces, hmodes⟩ := begin_alternatives hok
  have horigin : origin 1 = .declared 1 := by
    have hcontents := htraces.contains 0 (by omega)
    rw [hcontains, show origin 0 = .declared Grammar.rootId from htraces.root] at hcontents
    exact (List.cons.inj hcontents).1
  obtain ⟨mode, hsource, hmode⟩ := hmodes 1 (by omega)
  rw [horigin] at hsource
  obtain rfl := Option.some.inj hsource
  obtain ⟨table, body, htable, hbody, -, hexact⟩ := hmode "if else" rfl rfl
  obtain ⟨b, hb, hb'⟩ := Option.map_eq_some_iff.1 hbegin
  have hsame : body = "if|else" := by
    have heq : "\\b(" ++ body ++ ")\\b" = "\\b(" ++ "if|else" ++ ")\\b" := by
      rw [← hbody b hb, hb']
      rfl
    exact (String.append_right_inj _).1 ((String.append_left_inj _).1 heq)
  have hplain : ∀ word ∈ splitWords "if else", '|' ∉ word.toList := by decide +kernel
  rw [hsame] at hexact
  refine ⟨compiled, table, hok, htable, hbegin, hexact.2 ⟨by decide +kernel, ?_⟩⟩
  intro lexeme suffix _ hmem
  exact absurd (hplain _ hmem) (by simp)

/-- A weight is an alternative of the begin and no lexeme, though every word is made up of letters
and a weight. -/
theorem weight_among_alternatives :
    ∃ compiled table, (sampleBegin "if|2 else").compile false = .ok compiled ∧
      (compiled.mode 1).keywords = some table ∧
      (compiled.mode 1).begins.map (·.source) = some "\\b(if|2|else)\\b" ∧
      "2" ∈ alternativesOf "if|2|else" ∧ table.lookup "2" = none := by
  obtain ⟨compiled, hok, hfacts⟩ := exists_of_any
    (show ((sampleBegin "if|2 else").compile false).toOption.any (fun c =>
      (c.mode 1).keywords.any (fun table => table.lookup "2" == none) &&
      (c.mode 1).begins.map (·.source) == some "\\b(if|2|else)\\b") = true by decide +kernel)
  simp only [Bool.and_eq_true, beq_iff_eq] at hfacts
  obtain ⟨hkeywords, hbegin⟩ := hfacts
  obtain ⟨table, htable, hnone⟩ := (Option.any_eq_true _ _).1 hkeywords
  exact ⟨compiled, table, hok, htable, hbegin, by decide +kernel, by simpa using hnone⟩

end LexicalModes
