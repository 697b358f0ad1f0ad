import Mathlib.Data.List.Induction
import Mathlib.Data.Nat.Digits.Defs
import Mathlib.Data.Set.Card
import LexicalModes.Compiled.KeywordTable
import LexicalModes.Proofs.Outcomes

/-!
What a keyword table says. A declaration is a list of words with their classes, and a word is a
lexeme and, after its first bar, a suffix that gives the weight. Words are put into the table one
after another, so the table answers for every lexeme with the last word that has it (`LastWins`),
and the first word with a suffix that is no number in range is the one complained about.
-/

namespace LexicalModes

open Unicode

/-! ### Words -/

/-- Words are the pieces between white space that are not empty. -/
theorem splitWordsFrom_eq (word chars : List Char) :
    splitWordsFrom word chars =
      ((chars.splitOnP isWhiteSpace).modifyHead (word.reverse ++ ·)).filter (!·.isEmpty) := by
  induction chars generalizing word with
  | nil => cases word <;> simp [splitWordsFrom]
  | cons c rest ih =>
      have hhead : ∀ pieces : List (List Char), pieces.modifyHead (([] : List Char).reverse ++ ·) =
          pieces := fun pieces => by cases pieces <;> rfl
      rw [splitWordsFrom, List.splitOnP_cons_eq_if_modifyHead]
      by_cases hc : isWhiteSpace c = true
      · rw [if_pos hc, if_pos hc, ih, hhead, List.modifyHead_cons, List.append_nil]
        cases word <;> simp
      · rw [if_neg hc, if_neg hc, ih, List.modifyHead_modifyHead]
        congr 2
        funext piece
        simp

theorem splitWords_eq (text : String) : splitWords text =
    ((text.toList.splitOnP isWhiteSpace).filter (!·.isEmpty)).map String.ofList := by
  rw [splitWords, splitWordsFrom_eq]
  cases text.toList.splitOnP isWhiteSpace <;> rfl

/-- The word is the lexeme, or the lexeme, a bar and the suffix. No bar is in the lexeme. -/
inductive SplitsAtBar : String → String → String → Prop
  | bare {word : String} : '|' ∉ word.toList → SplitsAtBar word word ""
  | barred {lexeme : String} (suffix : String) : '|' ∉ lexeme.toList →
      SplitsAtBar (lexeme ++ "|" ++ suffix) lexeme suffix

/-- The text is a number written in digits, perhaps with a plus sign before them. -/
def IsNumeral (text : String) (n : Nat) : Prop :=
  ∃ digits : List Char, digits ≠ [] ∧ (∀ d ∈ digits, d.isDigit = true) ∧
    (text.toList = digits ∨ text.toList = '+' :: digits) ∧
    n = Nat.ofDigits 10 (digits.reverse.map fun d => d.toNat - '0'.toNat)

/-- The suffix gives the weight: one if it is empty, else the number that it is, below the bound of
weights. -/
def GivesWeight (suffix : String) (weight : Nat) : Prop :=
  suffix = "" ∧ weight = 1 ∨ IsNumeral suffix weight ∧ weight < 2 ^ 32

/-- The word has a suffix that gives no weight. -/
def IllWeighted (word : String) : Prop :=
  ∃ lexeme suffix, SplitsAtBar word lexeme suffix ∧ ∀ weight, ¬GivesWeight suffix weight

theorem bne_bar {lexeme : List Char} (h : '|' ∉ lexeme) : ∀ c ∈ lexeme, (c != '|') = true := by
  intro c hc
  rw [bne_iff_ne]
  rintro rfl
  exact h hc

/-- The lexeme is what comes before the first bar, and the suffix what comes behind it. -/
theorem SplitsAtBar.eq_takeWhile {word lexeme suffix : String}
    (h : SplitsAtBar word lexeme suffix) :
    word.toList.takeWhile (· != '|') = lexeme.toList ∧
      (word.toList.dropWhile (· != '|')).drop 1 = suffix.toList := by
  cases h with
  | bare hbar =>
      have hwhole := bne_bar hbar
      rw [← List.append_nil word.toList, List.takeWhile_append_of_pos hwhole,
        List.dropWhile_append_of_pos hwhole]
      simp
  | barred suffix hbar =>
      have hlexeme := bne_bar hbar
      have hchars : (lexeme ++ "|" ++ suffix).toList = lexeme.toList ++ '|' :: suffix.toList := by
        simp
      rw [hchars, List.takeWhile_append_of_pos hlexeme, List.dropWhile_append_of_pos hlexeme]
      simp

theorem SplitsAtBar.unique {word lexeme suffix other rest : String}
    (h : SplitsAtBar word lexeme suffix) (h' : SplitsAtBar word other rest) :
    other = lexeme ∧ rest = suffix := by
  obtain ⟨htake, hdrop⟩ := h.eq_takeWhile
  obtain ⟨htake', hdrop'⟩ := h'.eq_takeWhile
  rw [← String.toList_inj, ← String.toList_inj, ← htake, ← htake', ← hdrop, ← hdrop']
  exact ⟨rfl, rfl⟩

theorem exists_splitsAtBar (word : String) : ∃ lexeme suffix, SplitsAtBar word lexeme suffix := by
  by_cases hbar : '|' ∈ word.toList
  · obtain ⟨lexeme, suffix, hword, hnot⟩ := List.eq_append_cons_of_mem hbar
    have hsplit : word = String.ofList lexeme ++ "|" ++ String.ofList suffix := by
      rw [← String.toList_inj]
      simp [hword]
    rw [hsplit]
    exact ⟨_, _, .barred _ (by simpa using hnot)⟩
  · exact ⟨word, "", .bare hbar⟩

/-- What is read of a word is its lexeme, with the weight that is read of its suffix. -/
theorem readWord?_of_splitsAtBar {word lexeme suffix : String}
    (h : SplitsAtBar word lexeme suffix) :
    readWord? word =
      (if suffix = "" then some 1 else readWeight? suffix.toList).map (lexeme, ·) := by
  obtain ⟨htake, hdrop⟩ := h.eq_takeWhile
  rw [readWord?, htake, String.ofList_toList]
  rcases hrest : word.toList.dropWhile (· != '|') with _ | ⟨bar, _ | ⟨c, rest⟩⟩
  · have hempty : suffix = "" := by
      rw [← String.toList_eq_nil_iff, ← hdrop, hrest]
      rfl
    rw [if_pos hempty]
    rfl
  · have hempty : suffix = "" := by
      rw [← String.toList_eq_nil_iff, ← hdrop, hrest]
      rfl
    rw [if_pos hempty]
    rfl
  · have hchars : suffix.toList = c :: rest := by simpa [hrest, eq_comm] using hdrop
    have hne : suffix ≠ "" := by
      rintro rfl
      simp at hchars
    rw [if_neg hne, hchars]

/-! ### Weights -/

theorem foldl_digits (digits : List Char) :
    digits.foldl (fun n c => 10 * n + (c.toNat - '0'.toNat)) 0 =
      Nat.ofDigits 10 (digits.reverse.map fun d => d.toNat - '0'.toNat) := by
  induction digits using List.reverseRecOn with
  | nil => rfl
  | append_singleton digits d ih =>
      rw [List.foldl_append, ih, List.reverse_append, List.map_append]
      simp [Nat.ofDigits_cons]
      omega

/-- Digits are read as their number, if it is in range. -/
theorem readDigits_eq_some {digits : List Char} {n : Nat} :
    (if (digits.isEmpty || !digits.all Char.isDigit) = true then none
      else
        let n := digits.foldl (fun n c => 10 * n + (c.toNat - '0'.toNat)) 0
        if n ≤ Relevance.largest then some n else none) = some n ↔
      (digits ≠ [] ∧ (∀ d ∈ digits, d.isDigit = true) ∧
        n = Nat.ofDigits 10 (digits.reverse.map fun d => d.toNat - '0'.toNat)) ∧ n < 2 ^ 32 := by
  have hrange : ∀ m : Nat, m ≤ Relevance.largest ↔ m < 2 ^ 32 := by
    intro m
    rw [Relevance.largest]
    omega
  rw [foldl_digits]
  generalize Nat.ofDigits 10 _ = m
  by_cases hempty : digits = []
  · simp [hempty]
  · by_cases hdigits : ∀ d ∈ digits, d.isDigit = true
    · rw [if_neg (by simpa [hempty] using hdigits)]
      simp only [hrange, Option.ite_none_right_eq_some, Option.some_inj]
      constructor
      · rintro ⟨hlt, rfl⟩
        exact ⟨⟨hempty, hdigits, rfl⟩, hlt⟩
      · rintro ⟨⟨-, -, rfl⟩, hlt⟩
        exact ⟨hlt, rfl⟩
    · rw [if_pos (by simpa [hempty] using hdigits)]
      simp [hdigits]

theorem readWeight?_eq_some {suffix : String} {n : Nat} :
    readWeight? suffix.toList = some n ↔ IsNumeral suffix n ∧ n < 2 ^ 32 := by
  unfold readWeight?
  split
  case h_1 rest hplus =>
    rw [readDigits_eq_some]
    refine and_congr_left fun _ => ?_
    constructor
    · rintro ⟨hne, hdigits, hn⟩
      exact ⟨rest, hne, hdigits, .inr hplus, hn⟩
    · rintro ⟨digits, hne, hdigits, heq | heq, hn⟩
      · have hsign := hdigits '+' (by simp [← heq, hplus])
        cases hsign
      · obtain rfl : rest = digits := by simpa [hplus] using heq
        exact ⟨hne, hdigits, hn⟩
  case h_2 hplain =>
    rw [readDigits_eq_some]
    refine and_congr_left fun _ => ?_
    constructor
    · rintro ⟨hne, hdigits, hn⟩
      exact ⟨suffix.toList, hne, hdigits, .inl rfl, hn⟩
    · rintro ⟨digits, hne, hdigits, heq | heq, hn⟩
      · rw [heq]
        exact ⟨hne, hdigits, hn⟩
      · exact absurd heq (hplain digits)

theorem not_isNumeral_empty (n : Nat) : ¬IsNumeral "" n := by
  rintro ⟨digits, hne, -, heq | heq, -⟩
  · exact hne heq.symm
  · cases heq

/-- What is read of a suffix, one if there is none, is the weight it gives. -/
theorem suffixWeight_eq_some {suffix : String} {weight : Nat} :
    (if suffix = "" then some 1 else readWeight? suffix.toList) = some weight ↔
      GivesWeight suffix weight := by
  by_cases hempty : suffix = ""
  · rw [if_pos hempty, GivesWeight, hempty, Option.some_inj]
    simp [not_isNumeral_empty, eq_comm]
  · rw [if_neg hempty, GivesWeight, readWeight?_eq_some]
    simp [hempty]

/-- The word has this lexeme, and its suffix gives this weight. -/
def Declares (word lexeme : String) (weight : Nat) : Prop :=
  ∃ suffix, SplitsAtBar word lexeme suffix ∧ GivesWeight suffix weight

theorem readWord?_eq_some {word lexeme : String} {weight : Nat} :
    readWord? word = some (lexeme, weight) ↔ Declares word lexeme weight := by
  obtain ⟨first, suffix, hsplit⟩ := exists_splitsAtBar word
  rw [readWord?_of_splitsAtBar hsplit, Option.map_eq_some_iff]
  constructor
  · rintro ⟨read, hread, heq⟩
    obtain ⟨rfl, rfl⟩ := Prod.mk.inj heq
    exact ⟨suffix, hsplit, suffixWeight_eq_some.1 hread⟩
  · rintro ⟨other, hother, hgives⟩
    obtain ⟨rfl, rfl⟩ := hsplit.unique hother
    exact ⟨weight, suffixWeight_eq_some.2 hgives, rfl⟩

theorem readWord?_eq_none {word : String} : readWord? word = none ↔ IllWeighted word := by
  obtain ⟨lexeme, suffix, hsplit⟩ := exists_splitsAtBar word
  rw [readWord?_of_splitsAtBar hsplit, Option.map_eq_none_iff, Option.eq_none_iff_forall_ne_some]
  constructor
  · intro hnone
    exact ⟨lexeme, suffix, hsplit, fun weight hgives =>
      hnone weight (suffixWeight_eq_some.2 hgives)⟩
  · rintro ⟨other, rest, hother, hnone⟩ weight hread
    obtain ⟨rfl, rfl⟩ := hsplit.unique hother
    exact hnone weight (suffixWeight_eq_some.1 hread)

theorem Declares.unique {word lexeme other : String} {weight rest : Nat}
    (h : Declares word lexeme weight) (h' : Declares word other rest) :
    other = lexeme ∧ rest = weight := by
  have heq := (readWord?_eq_some.2 h').symm.trans (readWord?_eq_some.2 h)
  exact Prod.mk.inj (Option.some.inj heq)

theorem Declares.lexeme_eq {word lexeme x suffix : String} {weight : Nat}
    (h : Declares word lexeme weight) (hx : SplitsAtBar word x suffix) : x = lexeme := by
  obtain ⟨rest, hrest, -⟩ := h
  exact (hrest.unique hx).1

/-! ### Tables -/

namespace KeywordTable

theorem lookup_putEntry (entries : List (String × Keyword)) (lexeme x : String) (k : Keyword) :
    (putEntry lexeme k entries).lookup x = if x = lexeme then some k else entries.lookup x := by
  induction entries with
  | nil => by_cases hx : x = lexeme <;> simp [putEntry, List.lookup_cons, hx, beq_eq_false_iff_ne.2]
  | cons entry rest ih =>
      obtain ⟨other, old⟩ := entry
      rw [putEntry]
      by_cases heq : lexeme = other
      · subst heq
        rw [if_pos rfl]
        by_cases hx : x = lexeme <;> simp [List.lookup_cons, hx, beq_eq_false_iff_ne.2]
      · rw [if_neg heq, List.lookup_cons, List.lookup_cons, ih]
        by_cases hx : x = other
        · simp [hx, Ne.symm heq]
        · simp [hx, beq_eq_false_iff_ne.2]

theorem lookup_put (t : KeywordTable) (lexeme x : String) (k : Keyword) :
    (t.put lexeme k).lookup x = if x = lexeme then some k else t.lookup x :=
  lookup_putEntry t.entries lexeme x k

theorem keys_putEntry (entries : List (String × Keyword)) (lexeme : String) (k : Keyword) :
    (putEntry lexeme k entries).map Prod.fst =
      if lexeme ∈ entries.map Prod.fst then entries.map Prod.fst
      else entries.map Prod.fst ++ [lexeme] := by
  induction entries with
  | nil => rfl
  | cons entry rest ih =>
      obtain ⟨other, old⟩ := entry
      rw [putEntry]
      by_cases heq : lexeme = other
      · simp [heq]
      · rw [if_neg heq, List.map_cons, ih]
        by_cases hmem : lexeme ∈ rest.map Prod.fst
        · simp [hmem]
        · simp [hmem, heq]

theorem mem_keys_iff {entries : List (String × Keyword)} {x : String} :
    x ∈ entries.map Prod.fst ↔ entries.lookup x ≠ none := by
  rw [ne_eq, List.lookup_eq_none_iff, List.mem_map]
  constructor
  · rintro ⟨entry, hmem, rfl⟩ hall
    simpa using hall entry hmem
  · intro hsome
    push Not at hsome
    obtain ⟨entry, hmem, heq⟩ := hsome
    simp only [bne_iff_ne, ne_eq, not_not] at heq
    exact ⟨entry, hmem, heq.symm⟩

/-- The last of the words with this lexeme has this class and weight. -/
def Decides (words : List (String × String)) (x : String) (k : Keyword) : Prop :=
  ∃ before word after, words = before ++ (k.className, word) :: after ∧
    Declares word x k.weight ∧ ∀ later ∈ after, ∀ suffix, ¬SplitsAtBar later.2 x suffix

theorem decides_concat {words : List (String × String)} {className word x : String} {k : Keyword} :
    Decides (words ++ [(className, word)]) x k ↔
      className = k.className ∧ Declares word x k.weight ∨
      (∀ suffix, ¬SplitsAtBar word x suffix) ∧ Decides words x k := by
  constructor
  · rintro ⟨before, other, after, heq, hother, hlater⟩
    -- The last word is the one in question or comes after it.
    rcases List.eq_nil_or_concat after with rfl | ⟨init, last, rfl⟩
    · obtain ⟨-, hlast⟩ := List.append_inj' heq rfl
      cases hlast
      exact .inl ⟨rfl, hother⟩
    · rw [List.concat_eq_append] at heq hlater
      rw [← List.cons_append, ← List.append_assoc] at heq
      obtain ⟨rfl, hlast⟩ := List.append_inj' heq rfl
      cases hlast
      obtain ⟨hinit, hword⟩ := List.forall_mem_append.1 hlater
      exact .inr ⟨hword _ List.mem_cons_self, before, other, init, rfl, hother, hinit⟩
  · rintro (⟨rfl, hword⟩ | ⟨hword, before, other, after, rfl, hother, hlater⟩)
    · exact ⟨words, word, [], rfl, hword, by simp⟩
    · refine ⟨before, other, after ++ [(className, word)], by simp, hother, ?_⟩
      exact List.forall_mem_append.2 ⟨hlater, by simpa using hword⟩

/-- What the table says of a lexeme is what the last word with it says: its class and its weight.
It says nothing of other lexemes, and each stands in it once. -/
structure LastWins (t : KeywordTable) (words : List (String × String)) : Prop where
  lookup_eq_some : ∀ x k, t.lookup x = some k ↔ Decides words x k
  lookup_eq_none : ∀ x, t.lookup x = none ↔
    ∀ declared ∈ words, ∀ suffix, ¬SplitsAtBar declared.2 x suffix
  nodup_keys : (t.entries.map Prod.fst).Nodup

theorem LastWins.empty : LastWins {} [] where
  lookup_eq_some := by simp [lookup, Decides]
  lookup_eq_none := by simp [lookup]
  nodup_keys := List.nodup_nil

/-- A word that is put into the table decides for its lexeme. -/
theorem LastWins.put {t : KeywordTable} {words : List (String × String)} (h : t.LastWins words)
    (className : String) {word lexeme : String} {weight : Nat}
    (hword : Declares word lexeme weight) :
    (t.put lexeme ⟨className, weight⟩).LastWins (words ++ [(className, word)]) := by
  constructor
  case lookup_eq_some =>
    intro x k
    rw [lookup_put, decides_concat]
    by_cases hx : x = lexeme
    · subst hx
      rw [if_pos rfl, Option.some_inj]
      constructor
      · rintro rfl
        exact .inl ⟨rfl, hword⟩
      · rintro (⟨rfl, hother⟩ | ⟨hnone, -⟩)
        · rw [← (hword.unique hother).2]
        · obtain ⟨suffix, hsplit, -⟩ := hword
          exact absurd hsplit (hnone suffix)
    · rw [if_neg hx, h.lookup_eq_some]
      constructor
      · exact fun hlast => .inr ⟨fun suffix hsplit => hx (hword.lexeme_eq hsplit), hlast⟩
      · rintro (⟨-, hother⟩ | ⟨-, hlast⟩)
        · exact absurd (hword.unique hother).1 hx
        · exact hlast
  case lookup_eq_none =>
    intro x
    rw [lookup_put, List.forall_mem_append, List.forall_mem_singleton]
    by_cases hx : x = lexeme
    · obtain ⟨suffix, hsplit, -⟩ := hword
      rw [if_pos hx]
      simp only [reduceCtorEq, false_iff]
      exact fun hnone => hnone.2 suffix (hx ▸ hsplit)
    · rw [if_neg hx, h.lookup_eq_none]
      exact (and_iff_left fun suffix hsplit => hx (hword.lexeme_eq hsplit)).symm
  case nodup_keys =>
    change ((putEntry lexeme _ t.entries).map Prod.fst).Nodup
    rw [keys_putEntry]
    by_cases hmem : lexeme ∈ t.entries.map Prod.fst
    · rw [if_pos hmem]
      exact h.nodup_keys
    · rw [if_neg hmem]
      exact List.concat_eq_append ▸ h.nodup_keys.concat hmem

/-- The lexemes of the words are counted once each. -/
theorem LastWins.size_eq {t : KeywordTable} {words : List (String × String)}
    (h : t.LastWins words) : t.size =
      {x | ∃ declared ∈ words, ∃ suffix, SplitsAtBar declared.2 x suffix}.ncard := by
  have hkeys : {x | ∃ declared ∈ words, ∃ suffix, SplitsAtBar declared.2 x suffix} =
      {x | x ∈ t.entries.map Prod.fst} := by
    ext x
    have hnone := h.lookup_eq_none x
    rw [Set.mem_ofPred_eq, Set.mem_ofPred_eq, mem_keys_iff, ← not_iff_not]
    rw [lookup] at hnone
    push Not
    rw [hnone]
  rw [hkeys, ← List.coe_toFinset, Set.ncard_coe_finset, List.toFinset_card_of_nodup h.nodup_keys,
    List.length_map, size]

end KeywordTable

namespace Keywords

/-- Words that all give a weight are added, one after another. -/
theorem addWords_eq_ok {t : KeywordTable} {read words : List (String × String)}
    (h : t.LastWins read) (hgood : ∀ declared ∈ words, ¬IllWeighted declared.2) :
    ∃ next, addWords t words = .ok next ∧ next.LastWins (read ++ words) := by
  induction words generalizing t read with
  | nil => exact ⟨t, rfl, by simpa using h⟩
  | cons declared rest ih =>
      obtain ⟨className, word⟩ := declared
      obtain ⟨hword, hrest⟩ := List.forall_mem_cons.1 hgood
      rw [addWords]
      cases hread : readWord? word with
      | none => exact absurd (readWord?_eq_none.1 hread) hword
      | some entry =>
          obtain ⟨next, hok, hnext⟩ := ih (h.put className (readWord?_eq_some.1 hread)) hrest
          rw [List.append_assoc] at hnext
          exact ⟨next, hok, hnext⟩

/-- The first word that gives no weight stops them, whatever was added before it. -/
theorem addWords_eq_error (t : KeywordTable) {before : List (String × String)}
    (className : String) {word : String} (after : List (String × String))
    (hbefore : ∀ earlier ∈ before, ¬IllWeighted earlier.2) (hword : IllWeighted word) :
    addWords t (before ++ (className, word) :: after) = .error (.keywordWeight word) := by
  induction before generalizing t with
  | nil => rw [List.nil_append, addWords, readWord?_eq_none.2 hword]
  | cons declared rest ih =>
      obtain ⟨hgood, hrest⟩ := List.forall_mem_cons.1 hbefore
      rw [List.cons_append, addWords]
      cases hread : readWord? declared.2 with
      | none => exact absurd (readWord?_eq_none.1 hread) hgood
      | some entry => exact ih _ hrest

/-- A declaration has a table unless one of its words gives no weight; then the first such word is
complained about. -/
theorem table_cases (keywords : Keywords) (caseInsensitive : Bool) :
    (∃ t, keywords.table caseInsensitive = .ok t ∧
        t.LastWins (keywords.words caseInsensitive) ∧
        ∀ declared ∈ keywords.words caseInsensitive, ¬IllWeighted declared.2) ∨
      ∃ before className word after,
        keywords.words caseInsensitive = before ++ (className, word) :: after ∧
        (∀ earlier ∈ before, ¬IllWeighted earlier.2) ∧ IllWeighted word ∧
        keywords.table caseInsensitive = .error (.keywordWeight word) := by
  classical
  rw [table]
  cases hfirst : (keywords.words caseInsensitive).find? (IllWeighted ·.2) with
  | none =>
      have hgood : ∀ declared ∈ keywords.words caseInsensitive, ¬IllWeighted declared.2 := by
        simpa using hfirst
      obtain ⟨t, hok, ht⟩ := addWords_eq_ok KeywordTable.LastWins.empty hgood
      exact .inl ⟨t, hok, ht, hgood⟩
  | some declared =>
      obtain ⟨className, word⟩ := declared
      obtain ⟨hword, before, after, hwords, hbefore⟩ := List.find?_eq_some_iff_append.1 hfirst
      have hgood : ∀ earlier ∈ before, ¬IllWeighted earlier.2 := by simpa using hbefore
      have hbad : IllWeighted word := by simpa using hword
      refine .inr ⟨before, className, word, after, hwords, hgood, hbad, ?_⟩
      rw [hwords]
      exact addWords_eq_error {} className after hgood hbad

theorem table_eq_error_iff (keywords : Keywords) (caseInsensitive : Bool) (e : CompileError) :
    keywords.table caseInsensitive = .error e ↔ ∃ before className word after,
      keywords.words caseInsensitive = before ++ (className, word) :: after ∧
        (∀ earlier ∈ before, ¬IllWeighted earlier.2) ∧ IllWeighted word ∧
        e = .keywordWeight word := by
  constructor
  · intro h
    rcases table_cases keywords caseInsensitive with
      ⟨t, hok, -, -⟩ | ⟨before, className, word, after, hwords, hbefore, hword, herror⟩
    · cases hok.symm.trans h
    · exact ⟨before, className, word, after, hwords, hbefore, hword,
        Except.error.inj (h.symm.trans herror)⟩
  · rintro ⟨before, className, word, after, hwords, hbefore, hword, rfl⟩
    rw [table, hwords]
    exact addWords_eq_error {} className after hbefore hword

theorem lastWins_of_table {keywords : Keywords} {caseInsensitive : Bool} {t : KeywordTable}
    (h : keywords.table caseInsensitive = .ok t) :
    t.LastWins (keywords.words caseInsensitive) ∧
      ∀ declared ∈ keywords.words caseInsensitive, ¬IllWeighted declared.2 := by
  rcases table_cases keywords caseInsensitive with
    ⟨next, hok, hnext⟩ | ⟨before, className, word, after, -, -, -, herror⟩
  · cases hok.symm.trans h
    exact hnext
  · cases herror.symm.trans h

theorem words_eq (keywords : Keywords) (caseInsensitive : Bool) :
    keywords.words caseInsensitive = keywords.lists.flatMap fun list =>
      ((((if caseInsensitive then lowercase list.2 else list.2).toList.splitOnP
        isWhiteSpace).filter (!·.isEmpty)).map String.ofList).map (list.1, ·) := by
  simp only [words, splitWords_eq]

theorem ascending_lists (keywords : Keywords) :
    (keywords.lists.map Prod.fst).Pairwise (· < ·) := by
  cases keywords with
  | plain list => simp [lists]
  | classes lists => exact lists.ascending

/-- **The table of a declaration.** A single list has the class of keywords. The words of all
lists, in ascending order of their classes, are the pieces between white space that are not empty.
Building the table fails exactly if some word's suffix gives no weight, and then with the first
such word; otherwise the table says of every lexeme what the last word with it says, nothing of
what is the lexeme of no word, and its size is the number of lexemes. -/
theorem last_declaration_wins (keywords : Keywords) (caseInsensitive : Bool) :
    (∀ list, keywords = .plain list → keywords.lists = [("keyword", list)]) ∧
    (∀ classes, keywords = .classes classes → keywords.lists = classes.entries) ∧
    (keywords.lists.map Prod.fst).Pairwise (· < ·) ∧
    (keywords.words caseInsensitive = keywords.lists.flatMap fun list =>
      ((((if caseInsensitive then lowercase list.2 else list.2).toList.splitOnP
        isWhiteSpace).filter (!·.isEmpty)).map String.ofList).map (list.1, ·)) ∧
    ((∃ e, keywords.table caseInsensitive = .error e) ↔
      ∃ declared ∈ keywords.words caseInsensitive, IllWeighted declared.2) ∧
    (∀ e, keywords.table caseInsensitive = .error e ↔ ∃ before className word after,
      keywords.words caseInsensitive = before ++ (className, word) :: after ∧
        (∀ earlier ∈ before, ¬IllWeighted earlier.2) ∧ IllWeighted word ∧
        e = .keywordWeight word) ∧
    ∀ t, keywords.table caseInsensitive = .ok t →
      (∀ x k, t.lookup x = some k ↔ ∃ before word after,
        keywords.words caseInsensitive = before ++ (k.className, word) :: after ∧
          (∃ suffix, SplitsAtBar word x suffix ∧ GivesWeight suffix k.weight) ∧
          ∀ later ∈ after, ∀ suffix, ¬SplitsAtBar later.2 x suffix) ∧
      (∀ x, t.lookup x = none ↔
        ∀ declared ∈ keywords.words caseInsensitive, ∀ suffix, ¬SplitsAtBar declared.2 x suffix) ∧
      t.size = {x | ∃ declared ∈ keywords.words caseInsensitive, ∃ suffix,
        SplitsAtBar declared.2 x suffix}.ncard := by
  refine ⟨?_, ?_, keywords.ascending_lists, keywords.words_eq caseInsensitive, ?_,
    keywords.table_eq_error_iff caseInsensitive, ?_⟩
  · rintro list rfl
    rfl
  · rintro classes rfl
    rfl
  · constructor
    · rintro ⟨e, herror⟩
      obtain ⟨before, className, word, after, hwords, -, hbad, -⟩ :=
        (keywords.table_eq_error_iff caseInsensitive e).1 herror
      exact ⟨(className, word), by simp [hwords], hbad⟩
    · rintro ⟨declared, hmem, hbad⟩
      rcases keywords.table_cases caseInsensitive with
        ⟨t, -, -, hgood⟩ | ⟨before, className, word, after, -, -, -, herror⟩
      · exact absurd hbad (hgood declared hmem)
      · exact ⟨_, herror⟩
  · intro t ht
    obtain ⟨hwins, -⟩ := lastWins_of_table ht
    exact ⟨hwins.lookup_eq_some, hwins.lookup_eq_none, hwins.size_eq⟩

/-- One word in two classes, and one word. -/
def sampleRepeated : Keywords := .classes (.ofList [("word", "if|07"), ("built", "if|3 do|")])

/-- Both lexemes of the sample are counted once. -/
theorem last_declaration_wins_sample : ∃ t, sampleRepeated.table false = .ok t ∧
    t.lookup "if" = some ⟨"word", 7⟩ ∧ t.lookup "do" = some ⟨"built", 1⟩ ∧
    {x | ∃ declared ∈ sampleRepeated.words false, ∃ suffix,
      SplitsAtBar declared.2 x suffix}.ncard = 2 := by
  have hok : sampleRepeated.table false =
      .ok ⟨[("if", ⟨"word", 7⟩), ("do", ⟨"built", 1⟩)]⟩ := by decide +kernel
  have hsize := ((last_declaration_wins sampleRepeated false).2.2.2.2.2.2 _ hok).2.2
  exact ⟨_, hok, rfl, rfl, hsize.symm⟩

end Keywords

end LexicalModes
