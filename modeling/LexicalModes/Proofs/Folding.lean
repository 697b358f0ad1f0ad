import LexicalModes.Proofs.Casing
import LexicalModes.Proofs.Keywords
import LexicalModes.Proofs.Classify

/-!
Lower-casing and the reading of keywords go together. White space and bars are steady, so
lower-casing a list and then taking it apart at them comes to the same as taking it apart first
(`splitWords_lowercase`), and a weight is read of a word's suffix in either case or of none
(`readWord?_lowercase`). The table that is built is therefore that of the lexemes in lower case.
-/

namespace LexicalModes

open Unicode

/-! ### Words in lower case -/

theorem splitOnP_lowerAfter (text : List Char) :
    (lowerAfter [] text).splitOnP isWhiteSpace =
      (text.splitOnP isWhiteSpace).map (lowerAfter []) := by
  induction hlength : text.length using Nat.strong_induction_on generalizing text with
  | _ length ih =>
      by_cases hspace : ∃ c ∈ text, isWhiteSpace c = true
      · -- Any white space does for the cut, not only the first: both sides are shorter.
        obtain ⟨c, hc, hspace⟩ := hspace
        obtain ⟨front, rest, rfl⟩ := List.append_of_mem hc
        rw [List.length_append, List.length_cons] at hlength
        rw [lowerAfter_append_cons (isSteady_of_isWhiteSpace hspace),
          List.splitOnP_append_cons _ _ hspace, List.splitOnP_append_cons _ _ hspace,
          List.map_append, ih _ (by omega) front rfl, ih _ (by omega) rest rfl]
      · have hnone : ∀ c ∈ text, isWhiteSpace c = false := by simpa using hspace
        have hlower : ∀ d ∈ lowerAfter [] text, isWhiteSpace d = false := by
          intro d hd
          rw [← Bool.not_eq_true]
          intro hd'
          exact hspace ⟨d, eq_of_mem_lowerAfter hd (isSteady_of_isWhiteSpace hd'), hd'⟩
        rw [List.splitOnP_eq_singleton hnone, List.splitOnP_eq_singleton hlower, List.map_singleton]

theorem splitWords_lowercase (text : String) :
    splitWords (lowercase text) = (splitWords text).map lowercase := by
  have hempty : (fun piece : List Char => !piece.isEmpty) ∘ lowerAfter [] =
      fun piece => !piece.isEmpty := by
    funext piece
    rw [Function.comp_apply, Bool.eq_iff_iff]
    simp [lowerAfter_eq_nil]
  rw [splitWords_eq, splitWords_eq, lowercase, String.toList_ofList, splitOnP_lowerAfter,
    List.filter_map, hempty, List.map_map, List.map_map]
  congr 1
  funext piece
  simp [lowercase]

/-- The lower case of a word is made up of the lower case of its parts. -/
theorem SplitsAtBar.lowercase {word lexeme suffix : String} (h : SplitsAtBar word lexeme suffix) :
    SplitsAtBar (lowercase word) (lowercase lexeme) (lowercase suffix) := by
  have hno : ∀ {text : String}, '|' ∉ text.toList → '|' ∉ (Unicode.lowercase text).toList := by
    intro text hbar hlower
    rw [Unicode.lowercase, String.toList_ofList] at hlower
    exact hbar (eq_of_mem_lowerAfter hlower isSteady_bar)
  cases h with
  | bare hbar => exact .bare (hno hbar)
  | barred suffix hbar =>
      have hword : Unicode.lowercase (lexeme ++ "|" ++ suffix) =
          Unicode.lowercase lexeme ++ "|" ++ Unicode.lowercase suffix := by
        have hsplit := lowerAfter_append_cons isSteady_bar [] lexeme.toList suffix.toList
        rw [← String.toList_inj]
        simp [Unicode.lowercase, hsplit]
      rw [hword]
      exact .barred _ (hno hbar)

theorem isSteady_of_isDigit {c : Char} (h : c.isDigit = true) : IsSteady c := by
  have hrange := Char.isDigit_iff_toNat.1 h
  exact ⟨(48, 57), by decide, hrange⟩

theorem steady_of_isNumeral {text : String} {n : Nat} (h : IsNumeral text n) :
    ∀ c ∈ text.toList, IsSteady c := by
  obtain ⟨digits, -, hdigits, heq | heq, -⟩ := h
  · rw [heq]
    exact fun c hc => isSteady_of_isDigit (hdigits c hc)
  · rw [heq]
    exact List.forall_mem_cons.2 ⟨by decide, fun c hc => isSteady_of_isDigit (hdigits c hc)⟩

theorem isNumeral_lowercase {text : String} {n : Nat} :
    IsNumeral (lowercase text) n ↔ IsNumeral text n := by
  have hself : (∀ c ∈ text.toList, IsSteady c) → lowercase text = text := by
    intro hsteady
    rw [lowercase, lowerAfter_of_steady hsteady, String.ofList_toList]
  constructor
  · intro h
    have hsteady := steady_of_isNumeral h
    rw [lowercase, String.toList_ofList] at hsteady
    rwa [hself (steady_of_lowerAfter hsteady)] at h
  · intro h
    rwa [hself (steady_of_isNumeral h)]

theorem givesWeight_lowercase {suffix : String} {weight : Nat} :
    GivesWeight (lowercase suffix) weight ↔ GivesWeight suffix weight := by
  have hempty : lowercase suffix = "" ↔ suffix = "" := by
    rw [← String.toList_eq_nil_iff, ← String.toList_eq_nil_iff, lowercase, String.toList_ofList]
    exact lowerAfter_eq_nil
  rw [GivesWeight, GivesWeight, isNumeral_lowercase, hempty]

theorem readWord?_lowercase (word : String) :
    readWord? (lowercase word) = (readWord? word).map fun read => (lowercase read.1, read.2) := by
  cases hread : readWord? word with
  | none =>
      obtain ⟨lexeme, suffix, hsplit, hnone⟩ := readWord?_eq_none.1 hread
      rw [Option.map_none, readWord?_eq_none]
      exact ⟨_, _, hsplit.lowercase, fun weight hgives =>
        hnone weight (givesWeight_lowercase.1 hgives)⟩
  | some read =>
      obtain ⟨suffix, hsplit, hgives⟩ := readWord?_eq_some.1 hread
      rw [Option.map_some, readWord?_eq_some]
      exact ⟨_, hsplit.lowercase, givesWeight_lowercase.2 hgives⟩

/-! ### Tables in lower case -/

namespace Keywords

theorem words_true (keywords : Keywords) : keywords.words true =
    (keywords.words false).map fun declared => (declared.1, lowercase declared.2) := by
  simp [words, splitWords_lowercase, List.map_flatMap, Function.comp_def]

/-- Add words to a table, each under the lower case of its lexeme alone. -/
def addFolded (table : KeywordTable) :
    List (String × String) → Except CompileError KeywordTable
  | [] => .ok table
  | (className, word) :: rest =>
    match readWord? word with
    | some (lexeme, weight) => addFolded (table.put (lowercase lexeme) ⟨className, weight⟩) rest
    | none => .error (.keywordWeight word)

/-- The table of a declaration that is taken apart as it is written, with every lexeme then
lower-cased. -/
def foldedTable (keywords : Keywords) : Except CompileError KeywordTable :=
  addFolded {} (keywords.words false)

theorem addWords_eq_addFolded (t next : KeywordTable) (words : List (String × String)) :
    addWords t (words.map fun declared => (declared.1, lowercase declared.2)) = .ok next ↔
      addFolded t words = .ok next := by
  induction words generalizing t with
  | nil => rfl
  | cons declared rest ih =>
      rw [List.map_cons, addWords, addFolded, readWord?_lowercase]
      cases readWord? declared.2 with
      | none => simp
      | some read => exact ih _

theorem exists_lookup_lowercase {keywords : Keywords} {t : KeywordTable}
    (h : keywords.table true = .ok t) {declared : String × String}
    (hdeclared : declared ∈ keywords.words false) {lexeme suffix : String}
    (hsplit : SplitsAtBar declared.2 lexeme suffix) :
    ∃ k, t.lookup (lowercase lexeme) = some k := by
  obtain ⟨hwins, -⟩ := lastWins_of_table h
  rw [words_true] at hwins
  refine Option.ne_none_iff_exists'.1 fun hnone => ?_
  exact (hwins.lookup_eq_none _).1 hnone _ (List.mem_map_of_mem hdeclared) _ hsplit.lowercase

/-- **Folding when the table is built and when a word is looked up.** Lower-casing whole lists and
then taking them apart gives the same table as taking them apart and lower-casing each lexeme. So
every word of a text whose lower case is that of a declared lexeme is a hit: it is pushed as a
keyword, as it is spelled, and counts with its weight. -/
theorem folding_agrees (keywords : Keywords) (t : KeywordTable) :
    (keywords.table true = .ok t ↔ keywords.foldedTable = .ok t) ∧
    (keywords.table true = .ok t → ∀ declared ∈ keywords.words false, ∀ lexeme suffix,
      SplitsAtBar declared.2 lexeme suffix → ∀ word, lowercase word = lowercase lexeme →
        ∃ k, t.lookup (lowercase word) = some k ∧
          ∀ (text : Pattern.Text) (c : Classified) (last start stop : Nat),
            text.slice start stop = word →
            c.addLexeme t true text last (start, stop) =
              ⟨(c.stream.pushText (text.slice last start)).push (.keyword k.className word),
                Relevance.add c.relevance k.weight⟩) := by
  constructor
  · rw [table, words_true, foldedTable]
    exact addWords_eq_addFolded {} t _
  · intro h declared hdeclared lexeme suffix hsplit word hword
    obtain ⟨k, hk⟩ := exists_lookup_lowercase h hdeclared hsplit
    rw [← hword] at hk
    refine ⟨k, hk, ?_⟩
    rintro text c last start stop rfl
    simp only [Classified.addLexeme, if_true, hk]

/-- A letter with an accent, and one whose lower case is two characters. -/
def sampleAccented : Keywords := .plain "ÉTÉ|2 İF"

theorem folding_agrees_sample : ∃ t, sampleAccented.table true = .ok t ∧
    sampleAccented.foldedTable = .ok t ∧ ∃ k, t.lookup (lowercase "éTÉ") = some k := by
  have hok : sampleAccented.table true =
      .ok ⟨[("été", ⟨"keyword", 2⟩), ("i̇f", ⟨"keyword", 1⟩)]⟩ := by decide +kernel
  obtain ⟨hfolded, hlookup⟩ := folding_agrees sampleAccented
    ⟨[("été", ⟨"keyword", 2⟩), ("i̇f", ⟨"keyword", 1⟩)]⟩
  have hword : "ÉTÉ|2" = "ÉTÉ" ++ "|" ++ "2" := by decide +kernel
  obtain ⟨k, hk, -⟩ := hlookup hok ("keyword", "ÉTÉ|2") (by decide +kernel) "ÉTÉ" "2"
    (hword ▸ .barred "2" (by decide)) "éTÉ" (by decide +kernel)
  exact ⟨_, hok, hfolded.1 hok, k, hk⟩

end Keywords

end LexicalModes
