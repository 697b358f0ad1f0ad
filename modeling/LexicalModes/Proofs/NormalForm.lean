import Mathlib.Data.List.Chain
import LexicalModes.Proofs.Nesting

/-!
Tokens come in normal form: texts are joined wherever they meet, and neither a text nor a keyword is
empty. Text only ever reaches a stream by being joined to what is there, so what has to be seen of
the other ways is that they add no text next to a text and no empty keyword. A lexeme is never
empty; and the tokens of an embedded language stand between the boundaries of that language, or are
joined one by one if the text was left as it is.
-/

namespace LexicalModes

/-- Whether the token is text without a class of its own. -/
def Token.isText : Token → Bool
  | .text _ => true
  | .keyword _ _ | .begins _ | .ends _ => false

/-- The tokens are not both text. -/
def Token.Apart (t next : Token) : Prop := t.isText = false ∨ next.isText = false

instance (t next : Token) : Decidable (t.Apart next) :=
  inferInstanceAs (Decidable (t.isText = false ∨ next.isText = false))

/-- No text stands next to another, and no text and no keyword is empty. -/
structure NormalForm (tokens : List Token) : Prop where
  apart : tokens.IsChain Token.Apart
  filled : ∀ t ∈ tokens, t.isLeaf = true → t.content ≠ ""

instance (tokens : List Token) : Decidable (NormalForm tokens) :=
  decidable_of_iff (tokens.IsChain Token.Apart ∧ ∀ t ∈ tokens, t.isLeaf = true → t.content ≠ "")
    ⟨fun h => ⟨h.1, h.2⟩, fun h => ⟨h.apart, h.filled⟩⟩

theorem normalForm_nil : NormalForm [] := ⟨List.IsChain.nil, List.forall_mem_nil _⟩

/-- One more token fits if it is not empty and makes no two texts meet. -/
theorem normalForm_concat_iff {tokens : List Token} {t : Token} :
    NormalForm (tokens ++ [t]) ↔ NormalForm tokens ∧ (∀ last ∈ tokens.getLast?, last.Apart t) ∧
      (t.isLeaf = true → t.content ≠ "") := by
  constructor
  · rintro ⟨hapart, hfilled⟩
    obtain ⟨hfront, -, hseam⟩ := List.isChain_append.1 hapart
    obtain ⟨hrest, ht⟩ := List.forall_mem_append.1 hfilled
    exact ⟨⟨hfront, hrest⟩, fun last hlast => hseam last hlast t rfl, ht t List.mem_cons_self⟩
  · rintro ⟨h, hseam, ht⟩
    refine ⟨List.isChain_append.2 ⟨h.apart, List.isChain_singleton t, ?_⟩,
      List.forall_mem_append.2 ⟨h.filled, List.forall_mem_singleton.2 ht⟩⟩
    rintro last hlast _ ⟨⟩
    exact hseam last hlast

example : NormalForm [.text "a", .begins (.region "b"), .text "b"] ∧
    ¬NormalForm [.text "a", .text "b"] ∧ ¬NormalForm [.keyword "keyword" ""] := by decide

theorem NormalForm.append {first second : List Token} (hfirst : NormalForm first)
    (hsecond : NormalForm second)
    (hseam : ∀ last ∈ first.getLast?, ∀ next ∈ second.head?, last.Apart next) :
    NormalForm (first ++ second) :=
  ⟨List.isChain_append.2 ⟨hfirst.apart, hsecond.apart, hseam⟩,
    List.forall_mem_append.2 ⟨hfirst.filled, hsecond.filled⟩⟩

/-! ### Adding to a stream -/

section

variable {s : Stream}

/-- What is no text can stand next to anything. -/
theorem NormalForm.push (h : NormalForm s.toList) {t : Token} (hmarked : t.isText = false)
    (hfilled : t.isLeaf = true → t.content ≠ "") : NormalForm (s.push t).toList := by
  rw [Stream.toList_push]
  exact normalForm_concat_iff.2 ⟨h, fun last _ => .inr hmarked, hfilled⟩

theorem NormalForm.pushBoundary (h : NormalForm s.toList) {t : Token} (ht : t.isLeaf = false) :
    NormalForm (s.push t).toList := by
  apply h.push
  · cases t <;> first | rfl | cases ht
  · intro hleaf
    rw [ht] at hleaf
    cases hleaf

/-- Text that is joined to what is there meets no other text. -/
theorem NormalForm.pushText (h : NormalForm s.toList) (content : String) :
    NormalForm (s.pushText content).toList := by
  by_cases hempty : content = ""
  · rw [Stream.pushText, if_pos (String.isEmpty_iff.2 hempty)]
    exact h
  · rw [Stream.pushText, if_neg (mt String.isEmpty_iff.1 hempty)]
    split
    case h_1 before rest hlatest =>
      have hs : s.toList = rest.reverse ++ [.text before] := by
        simp [Stream.toList, hlatest]
      have hjoined : (Stream.mk (.text (before ++ content) :: rest)).toList =
          rest.reverse ++ [.text (before ++ content)] := by
        simp [Stream.toList]
      rw [hs, normalForm_concat_iff] at h
      rw [hjoined, normalForm_concat_iff]
      refine ⟨h.1, h.2.1, fun _ hjoin => hempty ?_⟩
      exact (String.append_eq_empty_iff.1 hjoin).2
    case h_2 hother =>
      rw [Stream.toList_push]
      refine normalForm_concat_iff.2 ⟨h, fun last hlast => ?_, fun _ => hempty⟩
      rw [Stream.toList, List.getLast?_reverse] at hlast
      obtain ⟨rest, hlatest⟩ := List.head?_eq_some_iff.1 hlast
      cases last with
      | text before => exact absurd hlatest (hother before rest)
      | keyword className word => exact .inl rfl
      | begins scope => exact .inl rfl
      | ends scope => exact .inl rfl

/-- Tokens that are joined one by one may meet as they like, and only keywords have to be filled. -/
theorem NormalForm.appendJoined (h : NormalForm s.toList) {tokens : List Token}
    (hfilled : ∀ className word, Token.keyword className word ∈ tokens → word ≠ "") :
    NormalForm (s.appendJoined tokens).toList := by
  induction tokens generalizing s with
  | nil => exact h
  | cons t rest ih =>
      have hrest : ∀ className word, Token.keyword className word ∈ rest → word ≠ "" :=
        fun className word hmem => hfilled className word (List.mem_cons_of_mem t hmem)
      apply ih _ hrest
      cases t with
      | text content => exact h.pushText content
      | keyword className word =>
          exact h.push rfl fun _ => hfilled className word List.mem_cons_self
      | begins scope => exact h.pushBoundary rfl
      | ends scope => exact h.pushBoundary rfl

/-- Between two boundaries tokens stay as they are. -/
theorem NormalForm.enclose (h : NormalForm s.toList) {tokens : List Token}
    (htokens : NormalForm tokens) (scope : Scope) :
    NormalForm (((s.push (.begins scope)).append tokens).push (.ends scope)).toList := by
  apply NormalForm.pushBoundary _ rfl
  rw [Stream.toList_append]
  refine (h.pushBoundary rfl).append htokens fun last hlast next _ => ?_
  rw [Stream.toList_push, List.getLast?_concat] at hlast
  cases hlast
  exact .inl rfl

end

/-! ### Keywords -/

/-- Only what is a match of at least one character becomes a keyword. -/
theorem Chained.ne_empty_of_keyword {table : KeywordTable} {caseInsensitive : Bool}
    {text : Pattern.Text} {last : Nat} {lexemes : List (Nat × Nat)}
    (h : Chained text.size last lexemes) {className word : String}
    (hmem : .keyword className word ∈ lexemeTokens table caseInsensitive text last lexemes) :
    word ≠ "" := by
  induction lexemes generalizing last with
  | nil => cases hmem
  | cons lexeme rest ih =>
      obtain ⟨-, hlexeme, hinside, hrest⟩ := h
      simp only [lexemeTokens, List.mem_cons, reduceCtorEq, false_or] at hmem
      rcases hmem with hword | hmem
      · have hcontent : word = text.slice lexeme.1 lexeme.2 := by
          rw [← content_wordToken table caseInsensitive (text.slice lexeme.1 lexeme.2), ← hword,
            Token.content_keyword]
        have hlength : word.length = lexeme.2 - lexeme.1 := by
          rw [hcontent, text.length_slice, Nat.min_eq_left hinside]
        rintro rfl
        rw [String.length_empty] at hlength
        omega
      · exact ih hrest hmem

theorem ne_empty_of_keyword_mem_leavesOf {mode : CompiledMode} {content : String}
    {caseInsensitive : Bool} {className word : String}
    (hmem : .keyword className word ∈ leavesOf mode content caseInsensitive) : word ≠ "" := by
  rw [leavesOf] at hmem
  split at hmem
  case h_1 => cases List.mem_singleton.1 hmem
  case h_2 =>
    rcases List.mem_append.1 hmem with hmem | hmem
    · exact (chained_lexemesIn _ _).ne_empty_of_keyword hmem
    · cases List.mem_singleton.1 hmem

/-! ### From events to tokens -/

namespace Emission

variable {g : CompiledGrammar} {embedding : Embedding} {e next : Emission}

theorem normalForm_addEmbedded (he : NormalForm e.stream.toList) (container : CompiledMode)
    {result : Highlighted} (hresult : NormalForm result.tokens) :
    NormalForm (e.addEmbedded container result).stream.toList := by
  rw [stream_addEmbedded]
  cases result.language with
  | some name => exact he.enclose hresult (.language name)
  | none =>
      exact he.appendJoined fun className word hmem =>
        hresult.filled (.keyword className word) hmem rfl

/-- **One event** keeps the form, if the answer to its request has it. -/
theorem normalForm_add {event : Event}
    (hanswers : ∀ request ∈ e.request? g event, ∀ result,
      embedding.Answers request result → NormalForm result.tokens)
    (he : NormalForm e.stream.toList) (hadd : (e.add g embedding event).value = .ok next) :
    NormalForm next.stream.toList := by
  cases add_eq_ok hadd with
  | begins className => exact he.pushBoundary rfl
  | ends className => exact he.pushBoundary rfl
  | score weight => exact he
  | classified hsub hclassify =>
      rw [stream_score, stream_of_classify hclassify]
      exact he.appendJoined fun className word => ne_empty_of_keyword_mem_leavesOf
  | @unregistered index content name hsub hnone => exact he.pushText content
  | @fixed index content name result hsub hresult =>
      have hinner : NormalForm result.tokens :=
        hanswers (.fixed name content (e.threads.lookup name)) (by simp [request?, hsub]) result
          hresult
      refine normalForm_addEmbedded ?_ _ hinner
      rwa [stream_keepThread]
  | @auto index content names result hsub hresult =>
      have hinner : NormalForm result.tokens :=
        hanswers (.auto names content) (by simp [request?, hsub]) result hresult
      exact normalForm_addEmbedded he _ hinner

theorem normalForm_addAll {events : List Event} {last : Emission}
    (hanswers : ∀ request ∈ requests g embedding e events, ∀ result,
      embedding.Answers request result → NormalForm result.tokens)
    (he : NormalForm e.stream.toList) (hlast : (addAll g embedding e events).value = .ok last) :
    NormalForm last.stream.toList := by
  induction events generalizing e with
  | nil =>
      cases hlast
      exact he
  | cons event rest ih =>
      obtain ⟨next, hnext, hrest⟩ := addAll_cons_eq_ok hlast
      simp only [requests, hnext] at hanswers
      have hform : NormalForm next.stream.toList :=
        normalForm_add (fun request hmem => hanswers request
          (List.mem_append_left _ (Option.mem_toList.2 hmem))) he hnext
      exact ih (fun request hmem => hanswers request (List.mem_append_right _ hmem)) hform hrest

end Emission

theorem normalForm_verbatim (content : String) :
    NormalForm (Highlighted.verbatim content).tokens :=
  NormalForm.pushText (s := .empty) normalForm_nil content

/-- The form is passed on from embedded results. -/
theorem hereditary_normalForm :
    Hereditary (fun _ => True) (fun _ => True) (fun _ result => NormalForm result.tokens) where
  verbatim := normalForm_verbatim
  byGrammar := by
    intro g embedding name ignoreIllegals stack content result _ _ hanswers hresult
    obtain ⟨e, last, he, -, rfl⟩ := highlightByGrammar_eq_ok hresult
    exact Emission.normalForm_addAll hanswers normalForm_nil he

/-- **Tokens come in normal form**, whichever continuation is resumed, for the two results that
detection keeps, and in the result of an embedded language at any depth. -/
theorem normalForm_highlight (h : Highlighter) :
    (∀ (name content : String) (options : Options) (result : Highlighted),
      (h.highlightWith name content options).value = .ok result → NormalForm result.tokens) ∧
    (∀ (language : Language) (content : String) (options : Options) (result : Highlighted),
      (h.highlightLanguage language content options).value = .ok result →
      NormalForm result.tokens) ∧
    (∀ (content : String) (names : List String) (detection : Detection),
      (h.highlightAmong content names).value = .ok detection →
      NormalForm detection.best.tokens ∧
        ∀ second ∈ detection.second, NormalForm second.tokens) ∧
    (∀ (depth : Nat) (request : Request) (result : Highlighted),
      (h.embedding depth).Answers request result → NormalForm result.tokens) := by
  have hall := h.registry.allCompiled_true
  refine ⟨?_, ?_, ?_, ?_⟩
  · intro name content options result hresult
    exact hereditary_normalForm.highlightWith hall (fun _ _ => trivial) hresult
  · intro language content options result hresult
    exact hereditary_normalForm.highlightLanguage hall (fun _ _ => trivial) (fun _ _ => trivial)
      hresult
  · intro content names detection hresult
    exact hereditary_normalForm.highlightAmong hall (fun _ _ => trivial) hresult
  · intro depth request result hresult
    exact hereditary_normalForm.answer hall depth request (fun _ _ => trivial) result hresult

/-- A language that leaves it to detection what is quoted in it. -/
def sampleGuessing : Language where
  name := "guessing"
  grammar := ⟨#[{ contains := [.mode 1], lexemes := some "z" },
    { beginPattern := some "<", endPattern := some ">", lexemes := some "z"
      subLanguage := some (.auto ["inner"]) }], by decide⟩

/-- No language scores for the first quoted text, so it is joined to the texts around it. -/
theorem normalForm_highlight_sample :
    (∃ result, (sampleHighlighter.highlightWith "host" "a<b1>c" {}).value = .ok result ∧
      NormalForm result.tokens) ∧
    (∃ result, (sampleHighlighter.highlightLanguage sampleGuessing "x>a<12>b"
        { continuation := some ⟨"guessing", ⟨[⟨1, none⟩]⟩⟩ }).value = .ok result ∧
      result.tokens = [.text "x>a", .begins (.language "inner"), .text "<",
        .begins (.region "number"), .text "1", .ends (.region "number"), .text "2>",
        .ends (.language "inner"), .text "b"] ∧ NormalForm result.tokens) ∧
    (∃ detection, (sampleHighlighter.highlightAmong "12<1>" []).value = .ok detection ∧
      NormalForm detection.best.tokens) ∧
    (∃ result, (sampleHighlighter.embedding 1).Answers (.auto ["inner"] "<x>") result ∧
      NormalForm result.tokens) := by
  obtain ⟨hwith, hlanguage, hamong, hanswer⟩ := normalForm_highlight sampleHighlighter
  refine ⟨?_, ?_, ?_, ?_⟩
  · obtain ⟨result, hresult⟩ := exists_of_isOk (show (sampleHighlighter.highlightWith "host"
      "a<b1>c" {}).value.isOk = true by decide +kernel)
    exact ⟨result, hresult, hwith _ _ _ _ hresult⟩
  · obtain ⟨result, hresult, htokens⟩ := exists_of_any (show
      (sampleHighlighter.highlightLanguage sampleGuessing "x>a<12>b"
        { continuation := some ⟨"guessing", ⟨[⟨1, none⟩]⟩⟩ }).value.toOption.any
        (fun result => decide (result.tokens = [.text "x>a", .begins (.language "inner"),
          .text "<", .begins (.region "number"), .text "1", .ends (.region "number"),
          .text "2>", .ends (.language "inner"), .text "b"])) = true by decide +kernel)
    exact ⟨result, hresult, of_decide_eq_true htokens, hlanguage _ _ _ _ hresult⟩
  · obtain ⟨detection, hdetection⟩ := exists_of_isOk (show (sampleHighlighter.highlightAmong
      "12<1>" []).value.isOk = true by decide +kernel)
    exact ⟨detection, hdetection, (hamong _ _ _ hdetection).1⟩
  · obtain ⟨result, hresult⟩ := exists_of_isOk (show ((sampleHighlighter.embedding 1).auto
      ["inner"] "<x>").value.isOk = true by decide +kernel)
    exact ⟨result, hresult, hanswer 1 (.auto ["inner"] "<x>") result hresult⟩

end LexicalModes
