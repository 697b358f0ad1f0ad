import LexicalModes.Token

/-!
The text and the regions of token lists. `plainText` turns every way of adding tokens to a stream
into concatenation, so a stream never loses or doubles text by joining neighbours. Regions are read
by a machine whose state is the list of open scopes: `WellNested` token lists bring it from no open
scope back to none. Joining neighbouring texts changes no state of the machine.
-/

namespace LexicalModes

@[simp] theorem plainText_nil : plainText [] = "" := by
  rw [plainText, List.map_nil, String.join_nil]

@[simp] theorem plainText_cons (t : Token) (tokens : List Token) :
    plainText (t :: tokens) = t.content ++ plainText tokens := by
  rw [plainText, List.map_cons, String.join_cons]
  rfl

@[simp] theorem plainText_append (first second : List Token) :
    plainText (first ++ second) = plainText first ++ plainText second := by
  rw [plainText, List.map_append, String.join_append]
  rfl

@[simp] theorem Token.content_text (content : String) :
    (Token.text content).content = content := rfl

@[simp] theorem Token.content_keyword (className content : String) :
    (Token.keyword className content).content = content := rfl

@[simp] theorem Token.content_begins (scope : Scope) : (Token.begins scope).content = "" := rfl

@[simp] theorem Token.content_ends (scope : Scope) : (Token.ends scope).content = "" := rfl

/-! ### The open scopes of a token list -/

/-- The open scopes after a token, the innermost first. There are none if the token ends something
else than the innermost open scope. -/
def Token.scopesAfter? (opened : List Scope) : Token → Option (List Scope)
  | .begins scope => some (scope :: opened)
  | .ends scope =>
    match opened with
    | [] => none
    | innermost :: around => if innermost = scope then some around else none
  | .text _ => some opened
  | .keyword _ _ => some opened

/-- The open scopes after tokens, the innermost first, if every end closes the innermost one. -/
def scopesAfter? (opened : List Scope) (tokens : List Token) : Option (List Scope) :=
  tokens.foldlM Token.scopesAfter? opened

/-- Every end closes the latest scope still open and has its kind and name, and nothing stays
open. -/
def WellNested (tokens : List Token) : Prop := scopesAfter? [] tokens = some []

instance (tokens : List Token) : Decidable (WellNested tokens) :=
  inferInstanceAs (Decidable (scopesAfter? [] tokens = some []))

/-- Whether a token carries text and is no boundary of a region. -/
def Token.isLeaf : Token → Bool
  | .text _ | .keyword _ _ => true
  | .begins _ | .ends _ => false

@[simp] theorem scopesAfter?_nil (opened : List Scope) : scopesAfter? opened [] = some opened := rfl

@[simp] theorem scopesAfter?_cons (opened : List Scope) (t : Token) (tokens : List Token) :
    scopesAfter? opened (t :: tokens) =
      (t.scopesAfter? opened).bind fun next => scopesAfter? next tokens := rfl

theorem scopesAfter?_append (opened : List Scope) (first second : List Token) :
    scopesAfter? opened (first ++ second) =
      (scopesAfter? opened first).bind fun next => scopesAfter? next second := by
  rw [scopesAfter?, List.foldlM_append]
  rfl

theorem Token.scopesAfter?_leaf {t : Token} (ht : t.isLeaf = true) (opened : List Scope) :
    t.scopesAfter? opened = some opened := by
  cases t with
  | text content => rfl
  | keyword className content => rfl
  | begins scope => cases ht
  | ends scope => cases ht

theorem scopesAfter?_leaves {tokens : List Token} (h : ∀ t ∈ tokens, t.isLeaf = true)
    (opened : List Scope) : scopesAfter? opened tokens = some opened := by
  induction tokens with
  | nil => rfl
  | cons t rest ih =>
      rw [scopesAfter?_cons, Token.scopesAfter?_leaf (h t List.mem_cons_self)]
      exact ih fun other hmem => h other (List.mem_cons_of_mem t hmem)

/-- Scopes that are open further out do not matter to a token that the machine accepts. -/
theorem Token.scopesAfter?_frame {t : Token} {opened next : List Scope}
    (h : t.scopesAfter? opened = some next) (around : List Scope) :
    t.scopesAfter? (opened ++ around) = some (next ++ around) := by
  cases t with
  | text content => cases h; rfl
  | keyword className content => cases h; rfl
  | begins scope => cases h; rfl
  | ends scope =>
      cases opened with
      | nil => cases h
      | cons innermost rest =>
          simp only [Token.scopesAfter?, List.cons_append] at h ⊢
          by_cases heq : innermost = scope
          · rw [if_pos heq] at h ⊢
            cases h
            rfl
          · rw [if_neg heq] at h
            cases h

theorem scopesAfter?_frame {tokens : List Token} {opened next : List Scope}
    (h : scopesAfter? opened tokens = some next) (around : List Scope) :
    scopesAfter? (opened ++ around) tokens = some (next ++ around) := by
  induction tokens generalizing opened with
  | nil => cases h; rfl
  | cons t rest ih =>
      rw [scopesAfter?_cons, Option.bind_eq_some_iff] at h
      obtain ⟨middle, ht, hrest⟩ := h
      rw [scopesAfter?_cons, Token.scopesAfter?_frame ht around]
      exact ih hrest

/-- Well-nested tokens leave the open scopes around them as they are. -/
theorem WellNested.scopesAfter? {tokens : List Token} (h : WellNested tokens)
    (opened : List Scope) : scopesAfter? opened tokens = some opened :=
  scopesAfter?_frame h opened

/-- A scope around well-nested tokens is opened and closed again. -/
theorem WellNested.enclosed {tokens : List Token} (h : WellNested tokens) (scope : Scope)
    (opened : List Scope) :
    LexicalModes.scopesAfter? opened (.begins scope :: tokens ++ [.ends scope]) = some opened := by
  rw [List.cons_append, scopesAfter?_cons]
  change LexicalModes.scopesAfter? (scope :: opened) (tokens ++ [.ends scope]) = some opened
  rw [scopesAfter?_append, h.scopesAfter?]
  simp [Token.scopesAfter?]

/-! ### Streams -/

namespace Stream

@[simp] theorem toList_empty : Stream.empty.toList = [] := rfl

@[simp] theorem toList_push (s : Stream) (t : Token) : (s.push t).toList = s.toList ++ [t] := by
  simp [push, toList]

@[simp] theorem toList_append (s : Stream) (tokens : List Token) :
    (s.append tokens).toList = s.toList ++ tokens := by
  induction tokens generalizing s with
  | nil => simp [append]
  | cons t rest ih =>
      change ((s.push t).append rest).toList = _
      rw [ih, toList_push, List.append_assoc]
      rfl

theorem appendJoined_append (s : Stream) (first second : List Token) :
    s.appendJoined (first ++ second) = (s.appendJoined first).appendJoined second :=
  List.foldl_append

/-- Adding text leaves the stream, lengthens a text at its end, or adds a text token. -/
theorem pushText_cases (s : Stream) (content : String) :
    (content = "" ∧ s.pushText content = s) ∨
    (∃ earlier before, s.toList = earlier ++ [.text before] ∧
      (s.pushText content).toList = earlier ++ [.text (before ++ content)]) ∨
    (s.pushText content).toList = s.toList ++ [.text content] := by
  by_cases hempty : content.isEmpty = true
  · exact Or.inl ⟨String.isEmpty_iff.1 hempty, by rw [pushText, if_pos hempty]⟩
  · rw [pushText, if_neg hempty]
    split
    case h_1 before rest hlatest =>
      exact Or.inr (Or.inl ⟨rest.reverse, before, by simp [toList, hlatest], by simp [toList]⟩)
    case h_2 => exact Or.inr (Or.inr (toList_push s _))

theorem plainText_pushText (s : Stream) (content : String) :
    plainText (s.pushText content).toList = plainText s.toList ++ content := by
  rcases pushText_cases s content with ⟨rfl, h⟩ | ⟨earlier, before, hs, h⟩ | h
  · rw [h, String.append_empty]
  · rw [h, hs]
    simp [String.append_assoc]
  · rw [h]
    simp

theorem plainText_pushJoined (s : Stream) (t : Token) :
    plainText (s.pushJoined t).toList = plainText s.toList ++ t.content := by
  cases t with
  | text content => exact plainText_pushText s content
  | keyword className content => simp [pushJoined]
  | begins scope => simp [pushJoined]
  | ends scope => simp [pushJoined]

/-- Joining texts keeps all of the text. -/
theorem plainText_appendJoined (s : Stream) (tokens : List Token) :
    plainText (s.appendJoined tokens).toList = plainText s.toList ++ plainText tokens := by
  induction tokens generalizing s with
  | nil => simp [appendJoined]
  | cons t rest ih =>
      change plainText ((s.pushJoined t).appendJoined rest).toList = _
      rw [ih, plainText_pushJoined, plainText_cons, String.append_assoc]

theorem scopesAfter?_pushText (s : Stream) (content : String) (opened : List Scope) :
    scopesAfter? opened (s.pushText content).toList = scopesAfter? opened s.toList := by
  rcases pushText_cases s content with ⟨-, h⟩ | ⟨earlier, before, hs, h⟩ | h
  · rw [h]
  · rw [h, hs, scopesAfter?_append, scopesAfter?_append]
    rfl
  · rw [h, scopesAfter?_append]
    exact Option.bind_fun_some _

theorem scopesAfter?_pushJoined (s : Stream) (t : Token) (opened : List Scope) :
    scopesAfter? opened (s.pushJoined t).toList =
      (scopesAfter? opened s.toList).bind t.scopesAfter? := by
  cases t with
  | text content =>
      change scopesAfter? opened (s.pushText content).toList = _
      rw [scopesAfter?_pushText]
      exact (Option.bind_fun_some _).symm
  | keyword className content => simp [pushJoined, scopesAfter?_append]
  | begins scope => simp [pushJoined, scopesAfter?_append]
  | ends scope => simp [pushJoined, scopesAfter?_append]

/-- Joining texts opens and closes the same scopes as adding the tokens one by one. -/
theorem scopesAfter?_appendJoined (s : Stream) (tokens : List Token) (opened : List Scope) :
    scopesAfter? opened (s.appendJoined tokens).toList =
      (scopesAfter? opened s.toList).bind fun next => scopesAfter? next tokens := by
  induction tokens generalizing s with
  | nil =>
      change scopesAfter? opened s.toList = _
      exact (Option.bind_fun_some _).symm
  | cons t rest ih =>
      change scopesAfter? opened ((s.pushJoined t).appendJoined rest).toList = _
      rw [ih, scopesAfter?_pushJoined, Option.bind_assoc]
      rfl

end Stream

end LexicalModes
