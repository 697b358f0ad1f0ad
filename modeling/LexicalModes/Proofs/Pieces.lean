import Mathlib.Data.List.TakeWhile
import LexicalModes.Compose

/-!
How patterns are split into pieces, and what becomes of the pieces when patterns are joined.
`Reads` is the splitting as a relation, so that proofs follow the pieces and not the fuel. A
`Closed` pattern, in which every bracket is closed and every backslash escapes something, is split
the same way whatever is written after it; a text with its references renumbered determines each of
the new numbers (`flatMap_shifted_append_inj`), because a reference takes all digits that follow.
-/

namespace LexicalModes

theorem classLength?_cons {c : Char} (hclose : c ≠ ']') (hescape : c ≠ '\\') (rest : List Char) :
    classLength? (c :: rest) = (classLength? rest).map (· + 1) := by
  rw [classLength?]
  · exact hclose
  · intro d others hc
    exact absurd hc hescape
  · intro hc
    exact absurd hc hescape

theorem classLength?_le {text : List Char} {n : Nat} (h : classLength? text = some n) :
    n ≤ text.length := by
  fun_induction classLength? text generalizing n with
  | case1 => cases h
  | case2 => cases h; simp
  | case3 => cases h
  | case4 c rest hc ih =>
      obtain ⟨m, hm, rfl⟩ := Option.map_eq_some_iff.1 h
      simpa using ih hm
  | case5 => cases h
  | case6 c rest _ _ _ ih =>
      obtain ⟨m, hm, rfl⟩ := Option.map_eq_some_iff.1 h
      simpa using ih hm

/-- A bracket that is closed stays closed at the same place. -/
theorem classLength?_append {text : List Char} {n : Nat} (h : classLength? text = some n)
    (more : List Char) : classLength? (text ++ more) = some n := by
  fun_induction classLength? text generalizing n with
  | case1 => cases h
  | case2 => simpa [classLength?] using h
  | case3 => cases h
  | case4 c rest hc ih =>
      obtain ⟨m, hm, rfl⟩ := Option.map_eq_some_iff.1 h
      simp [classLength?, hc, ih hm]
  | case5 => cases h
  | case6 c rest hclose hescape hlast ih =>
      obtain ⟨m, hm, rfl⟩ := Option.map_eq_some_iff.1 h
      have hne : c ≠ '\\' := by
        intro hc
        cases rest with
        | nil => exact hlast hc rfl
        | cons d others => exact hescape d others hc rfl
      rw [List.cons_append, classLength?_cons hclose hne, ih hm, Option.map_some]

/-- The first piece of a text, and what comes after it. -/
inductive First : List Char → Piece → List Char → Prop
  | bracket {body : List Char} {n : Nat} : classLength? body = some n →
      First ('[' :: body) (.copied ('[' :: body.take n)) (body.drop n)
  | looseBracket {rest : List Char} : classLength? rest = none →
      First ('[' :: rest) (.copied ['[']) rest
  | marked {rest : List Char} : First ('(' :: '?' :: rest) (.copied ['(', '?']) rest
  | opening {rest : List Char} : rest.head? ≠ some '?' → First ('(' :: rest) .opening rest
  | reference {c : Char} {body : List Char} : ('1' ≤ c && c ≤ '9') = true →
      First ('\\' :: c :: body) (.reference (c :: body.takeWhile Char.isDigit))
        (body.dropWhile Char.isDigit)
  | escape {c : Char} {rest : List Char} : ('1' ≤ c && c ≤ '9') = false → c ≠ '\n' →
      First ('\\' :: c :: rest) (.copied ['\\', c]) rest
  | looseEscape {rest : List Char} : (∀ c ∈ rest.head?, c = '\n') →
      First ('\\' :: rest) (.copied ['\\']) rest
  | plain {c : Char} {rest : List Char} : c ≠ '[' → c ≠ '(' → c ≠ '\\' →
      First (c :: rest) (.copied [c]) rest

theorem First.of_nextPiece? {text rest : List Char} {piece : Piece}
    (h : nextPiece? text = some (piece, rest)) : First text piece rest := by
  unfold nextPiece? at h
  split at h
  · cases h
  · split at h
    · rename_i n hn
      cases h
      exact .bracket hn
    · rename_i hnone
      cases h
      exact .looseBracket hnone
  · cases h
    exact .marked
  · rename_i body hquestion
    cases h
    refine .opening ?_
    intro hhead
    obtain ⟨others, hothers⟩ := List.head?_eq_some_iff.1 hhead
    exact hquestion others hothers
  · split at h
    · rename_i hc
      cases h
      exact .reference hc
    · rename_i hc
      split at h
      · rename_i hline
        cases h
        exact .looseEscape (by simp [hline])
      · rename_i hline
        cases h
        exact .escape (Bool.eq_false_iff.2 hc) hline
  · rename_i c body hbracket hquestion hopening hescape
    cases h
    by_cases hc : c = '\\'
    · subst hc
      refine .looseEscape ?_
      intro d hd
      obtain ⟨others, hothers⟩ := List.head?_eq_some_iff.1 hd
      exact absurd hothers (hescape d others rfl)
    · exact .plain hbracket hopening hc

theorem First.nextPiece?_eq {text rest : List Char} {piece : Piece} (h : First text piece rest) :
    nextPiece? text = some (piece, rest) := by
  cases h with
  | bracket hn => simp [nextPiece?, hn]
  | looseBracket hnone => simp [nextPiece?, hnone]
  | marked => rfl
  | opening hhead =>
      rw [nextPiece?]
      rintro others rfl
      exact hhead rfl
  | reference hc => simp [nextPiece?, hc]
  | escape hc hline => simp [nextPiece?, hc, hline]
  | looseEscape hline =>
      cases rest with
      | nil => rfl
      | cons c others =>
          obtain rfl := hline c rfl
          rfl
  | plain hbracket hopening hescape =>
      rw [nextPiece?]
      · exact hbracket
      · intro others hc
        exact absurd hc hopening
      · exact hopening
      · intro d others hc
        exact absurd hc hescape

/-- The pieces of a text, read one after another. -/
inductive Reads : List Char → List Piece → Prop
  | nil : Reads [] []
  | cons {text rest : List Char} {piece : Piece} {others : List Piece} :
      First text piece rest → Reads rest others → Reads text (piece :: others)

/-- What was read as a piece. -/
def Piece.text : Piece → List Char
  | .opening => ['(']
  | .reference digits => '\\' :: digits
  | .copied chars => chars

theorem First.text_ne_nil {text rest : List Char} {piece : Piece} (h : First text piece rest) :
    piece.text ≠ [] := by
  cases h <;> simp [Piece.text]

theorem First.eq_append {text rest : List Char} {piece : Piece} (h : First text piece rest) :
    text = piece.text ++ rest := by
  cases h with
  | bracket => simp [Piece.text]
  | reference => simp [Piece.text]
  | looseBracket | marked | opening | escape | looseEscape | plain => rfl

theorem First.length_lt {text rest : List Char} {piece : Piece} (h : First text piece rest) :
    rest.length < text.length := by
  have hpos := List.length_pos_iff.2 h.text_ne_nil
  rw [h.eq_append, List.length_append]
  omega

theorem nextPiece?_ne_none (c : Char) (rest : List Char) : nextPiece? (c :: rest) ≠ none := by
  unfold nextPiece?
  split
  · simp_all
  · split <;> simp
  · simp
  · simp
  · split
    · simp
    · split <;> simp
  · simp

/-- Fuel for every character is enough. -/
theorem reads_piecesUpTo (fuel : Nat) {text : List Char} (hfuel : text.length ≤ fuel) :
    Reads text (piecesUpTo fuel text) := by
  induction fuel generalizing text with
  | zero =>
      obtain rfl := List.length_eq_zero_iff.1 (Nat.le_zero.1 hfuel)
      exact .nil
  | succ fuel ih =>
      rw [piecesUpTo]
      cases hnext : nextPiece? text with
      | none =>
          cases text with
          | nil => exact .nil
          | cons c rest => exact absurd hnext (nextPiece?_ne_none c rest)
      | some found =>
          have hfirst := First.of_nextPiece? hnext
          have hlt := hfirst.length_lt
          exact .cons hfirst (ih (by omega))

theorem reads_pieces (pattern : String) : Reads pattern.toList (pieces pattern) :=
  reads_piecesUpTo _ (Nat.le_refl _)

theorem Reads.unique {text : List Char} {ps qs : List Piece} (hp : Reads text ps)
    (hq : Reads text qs) : ps = qs := by
  induction hp generalizing qs with
  | nil =>
      cases hq with
      | nil => rfl
      | cons hfirst _ => cases hfirst
  | cons hfirst _ ih =>
      cases hq with
      | nil => cases hfirst
      | cons hfirst' hrest =>
          have heq := hfirst.nextPiece?_eq.symm.trans hfirst'.nextPiece?_eq
          cases heq
          rw [ih hrest]

/-! ### Closed patterns -/

/-- Every bracket of the pattern is closed and every backslash escapes something. -/
def Closed (pattern : String) : Prop :=
  ∀ piece ∈ pieces pattern, piece ≠ .copied ['['] ∧ piece ≠ .copied ['\\']

instance (pattern : String) : Decidable (Closed pattern) :=
  inferInstanceAs (Decidable
    (∀ piece ∈ pieces pattern, piece ≠ .copied ['['] ∧ piece ≠ .copied ['\\']))

/-- What is taken while a test holds stays the same when text follows that starts otherwise. -/
theorem takeWhile_dropWhile_append (test : Char → Bool) (text : List Char) {more : List Char}
    (h : ∀ c ∈ more.head?, test c = false) :
    (text ++ more).takeWhile test = text.takeWhile test ∧
      (text ++ more).dropWhile test = text.dropWhile test ++ more := by
  induction text with
  | nil =>
      cases more with
      | nil => simp
      | cons c rest => simp [h c rfl]
  | cons c text ih =>
      cases hc : test c with
      | false => simp [hc]
      | true => simpa [hc] using ih

/-- A piece that is not loose is the same when a bar and more text come after. -/
theorem First.append_bar {text rest : List Char} {piece : Piece} (h : First text piece rest)
    (hbracket : piece ≠ .copied ['[']) (hescape : piece ≠ .copied ['\\']) (more : List Char) :
    First (text ++ '|' :: more) piece (rest ++ '|' :: more) := by
  cases h with
  | @bracket body n hn =>
      have hle := classLength?_le hn
      have hfirst := First.bracket (classLength?_append hn ('|' :: more))
      rwa [List.take_append_of_le_length hle, List.drop_append_of_le_length hle] at hfirst
  | looseBracket => exact absurd rfl hbracket
  | marked => exact .marked
  | opening hhead =>
      refine .opening ?_
      cases rest with
      | nil => simp
      | cons c others => simpa using hhead
  | @reference c body hc =>
      have hbar : ∀ d ∈ ('|' :: more).head?, d.isDigit = false := by simp
      obtain ⟨htake, hdrop⟩ := takeWhile_dropWhile_append Char.isDigit body hbar
      have hfirst := @First.reference c (body ++ '|' :: more) hc
      rwa [htake, hdrop] at hfirst
  | escape hc hline => exact .escape hc hline
  | looseEscape => exact absurd rfl hescape
  | plain hb ho he => exact .plain hb ho he

theorem Reads.append_bar {text more : List Char} {ps qs : List Piece} (hp : Reads text ps)
    (hclosed : ∀ piece ∈ ps, piece ≠ .copied ['['] ∧ piece ≠ .copied ['\\'])
    (hq : Reads more qs) : Reads (text ++ '|' :: more) (ps ++ .copied ['|'] :: qs) := by
  induction hp with
  | nil => exact .cons (.plain (by decide) (by decide) (by decide)) hq
  | cons hfirst _ ih =>
      obtain ⟨hbracket, hescape⟩ := hclosed _ List.mem_cons_self
      exact .cons (hfirst.append_bar hbracket hescape more)
        (ih fun piece hpiece => hclosed piece (List.mem_cons_of_mem _ hpiece))

/-- A closed pattern is split the same way when a bar and another pattern follow. -/
theorem pieces_append_bar {p : String} (h : Closed p) (q : String) :
    pieces (p ++ "|" ++ q) = pieces p ++ .copied ['|'] :: pieces q := by
  have hreads := (reads_pieces p).append_bar h (reads_pieces q)
  have htext : (p ++ "|" ++ q).toList = p.toList ++ '|' :: q.toList := by simp
  rw [← htext] at hreads
  exact (reads_pieces _).unique hreads

/-! ### Renumbered references -/

/-- The pattern has a reference that is renumbered. -/
def HasReference (pattern : String) : Prop :=
  ∃ digits, .reference digits ∈ pieces pattern ∧ Piece.number digits < Piece.referenceBound

theorem Piece.head?_shifted {text rest : List Char} {piece : Piece} (h : First text piece rest)
    (offset : Nat) : (piece.shifted offset).head? = text.head? := by
  cases h with
  | reference => simp only [Piece.shifted]; split <;> rfl
  | bracket | looseBracket | marked | opening | escape | looseEscape | plain => rfl

theorem Reads.head?_flatMap_shifted {text : List Char} {ps : List Piece} (h : Reads text ps)
    (offset : Nat) (more : List Char) :
    (ps.flatMap (Piece.shifted offset) ++ more).head? = text.head?.or more.head? := by
  cases h with
  | nil => simp
  | cons hfirst _ =>
      rw [List.flatMap_cons, List.append_assoc, List.head?_append, Piece.head?_shifted hfirst]
      cases text with
      | nil => cases hfirst
      | cons c rest => rfl

/-- Numbers written in digits before something else are the same if the texts are. -/
theorem digits_append_inj {a b : Nat} {xs ys : List Char} (hx : ∀ c ∈ xs.head?, c.isDigit = false)
    (hy : ∀ c ∈ ys.head?, c.isDigit = false)
    (h : a.repr.toList ++ xs = b.repr.toList ++ ys) : a = b ∧ xs = ys := by
  have hdigits : ∀ n : Nat, n.repr.toList.takeWhile Char.isDigit = n.repr.toList ∧
      n.repr.toList.dropWhile Char.isDigit = [] := by
    intro n
    rw [List.takeWhile_eq_self_iff, List.dropWhile_eq_nil_iff, Nat.toList_repr]
    exact ⟨fun c hc => Nat.isDigit_of_mem_toDigits (by decide) (by decide) hc,
      fun c hc => Nat.isDigit_of_mem_toDigits (by decide) (by decide) hc⟩
  obtain ⟨hxtake, hxdrop⟩ := takeWhile_dropWhile_append Char.isDigit a.repr.toList hx
  obtain ⟨hytake, hydrop⟩ := takeWhile_dropWhile_append Char.isDigit b.repr.toList hy
  rw [(hdigits a).1] at hxtake
  rw [(hdigits b).1] at hytake
  rw [(hdigits a).2, List.nil_append] at hxdrop
  rw [(hdigits b).2, List.nil_append] at hydrop
  refine ⟨?_, ?_⟩
  · have hrepr : a.repr.toList = b.repr.toList := by rw [← hxtake, h, hytake]
    rw [Nat.toList_repr, Nat.toList_repr] at hrepr
    rw [← @Nat.ofDigitChars_ten_toDigits a, hrepr, Nat.ofDigitChars_ten_toDigits]
  · rw [← hxdrop, h, hydrop]

/-- **Renumbered texts can be told apart.** Two renumberings of the same pieces, before texts that
do not start with a digit, are the same text only if they agree on every piece. -/
theorem flatMap_shifted_append_inj {text : List Char} {ps : List Piece} (h : Reads text ps)
    {a b : Nat} {xs ys : List Char} (hx : ∀ c ∈ xs.head?, c.isDigit = false)
    (hy : ∀ c ∈ ys.head?, c.isDigit = false) :
    ps.flatMap (Piece.shifted a) ++ xs = ps.flatMap (Piece.shifted b) ++ ys ↔
      (∀ piece ∈ ps, piece.shifted a = piece.shifted b) ∧ xs = ys := by
  induction h with
  | nil => simp
  | @cons text rest piece others hfirst hrest ih =>
      rw [List.flatMap_cons, List.flatMap_cons, List.append_assoc, List.append_assoc,
        List.forall_mem_cons, and_assoc, ← ih]
      constructor
      · intro heq
        cases hfirst with
        | @reference c body hc =>
            -- The digits of a reference are all there are, so what follows starts otherwise.
            have hnext : ∀ (offset : Nat) (more : List Char),
                (∀ d ∈ more.head?, d.isDigit = false) →
                ∀ d ∈ (others.flatMap (Piece.shifted offset) ++ more).head?, d.isDigit = false := by
              intro offset more hmore d hd
              rw [hrest.head?_flatMap_shifted] at hd
              have hnot := List.head?_dropWhile_not Char.isDigit body
              cases hhead : (body.dropWhile Char.isDigit).head? with
              | none =>
                  rw [hhead, Option.none_or] at hd
                  exact hmore d hd
              | some e =>
                  rw [hhead] at hd hnot
                  cases hd
                  simpa using hnot
            simp only [Piece.shifted] at heq ⊢
            split at heq
            · rename_i hrange
              rw [List.cons_append, List.cons_append, List.cons.injEq] at heq
              obtain ⟨hnumber, hmore⟩ :=
                digits_append_inj (hnext a xs hx) (hnext b ys hy) heq.2
              rw [if_pos hrange, if_pos hrange, hnumber]
              exact ⟨rfl, hmore⟩
            · rename_i hrange
              rw [if_neg hrange, if_neg hrange]
              exact ⟨rfl, List.append_cancel_left heq⟩
        | bracket | looseBracket | marked | opening | escape | looseEscape | plain =>
            exact ⟨rfl, List.append_cancel_left heq⟩
      · rintro ⟨hpiece, heq⟩
        rw [hpiece, heq]

/-- Two offsets give a piece the same text if they are the same modulo the bound, or the piece is
not a reference in range. -/
theorem forall_shifted_eq_iff {p : String} {a b : Nat} :
    (∀ piece ∈ pieces p, piece.shifted a = piece.shifted b) ↔
      (HasReference p → a % Piece.referenceBound = b % Piece.referenceBound) := by
  constructor
  · rintro h ⟨digits, hmem, hrange⟩
    have heq := h _ hmem
    simp only [Piece.shifted, if_pos hrange, List.cons.injEq, true_and] at heq
    have hnumber := (digits_append_inj (by simp) (by simp) (congrArg (· ++ []) heq)).1
    simp only [Piece.referenceBound] at hnumber ⊢
    omega
  · intro h piece hmem
    cases piece with
    | opening => rfl
    | copied chars => rfl
    | reference digits =>
        simp only [Piece.shifted]
        split
        · rename_i hrange
          have hoffset := h ⟨digits, hmem, hrange⟩
          rw [Nat.add_mod, hoffset, ← Nat.add_mod]
        · rfl

theorem toList_shiftReferences (offset : Nat) (p : String) :
    (shiftReferences offset p).toList = (pieces p).flatMap (Piece.shifted offset) := by
  rw [shiftReferences, String.toList_ofList]

/-! ### Patterns joined by bars -/

theorem shiftReferences_append_bar {p : String} (h : Closed p) (q : String) (offset : Nat) :
    shiftReferences offset (p ++ "|" ++ q) =
      shiftReferences offset p ++ "|" ++ shiftReferences offset q := by
  apply String.toList_injective
  simp only [String.toList_append, toList_shiftReferences, pieces_append_bar h,
    List.flatMap_append, List.flatMap_cons]
  simp [Piece.shifted]

theorem groupCount_append_bar {p : String} (h : Closed p) (q : String) :
    groupCount (p ++ "|" ++ q) = groupCount p + groupCount q := by
  simp [groupCount, pieces_append_bar h, Piece.isOpening]

/-- Number of groups of patterns together. -/
def groupTotal : List String → Nat
  | [] => 0
  | p :: rest => groupCount p + groupTotal rest

@[simp] theorem groupTotal_nil : groupTotal [] = 0 := rfl

@[simp] theorem groupTotal_cons (p : String) (ps : List String) :
    groupTotal (p :: ps) = groupCount p + groupTotal ps := rfl

theorem groupTotal_append (ps qs : List String) :
    groupTotal (ps ++ qs) = groupTotal ps + groupTotal qs := by
  induction ps with
  | nil => exact (Nat.zero_add _).symm
  | cons p ps ih => rw [List.cons_append, groupTotal_cons, groupTotal_cons, ih, Nat.add_assoc]

/-- Patterns joined without renumbering, all but the last of them closed, are then renumbered all
alike. -/
theorem shiftReferences_intercalate {ps : List String} (h : ∀ p ∈ ps.dropLast, Closed p)
    (offset : Nat) :
    shiftReferences offset ("|".intercalate ps) =
        "|".intercalate (ps.map (shiftReferences offset)) ∧
      groupCount ("|".intercalate ps) = groupTotal ps := by
  induction ps with
  | nil => exact ⟨rfl, rfl⟩
  | cons p ps ih =>
      cases ps with
      | nil => simp
      | cons q rest =>
          obtain ⟨hshift, hcount⟩ := ih fun r hr => h r (by simp [hr])
          have hclosed : Closed p := h p (by simp)
          rw [String.intercalate_cons_cons, shiftReferences_append_bar hclosed, hshift,
            groupCount_append_bar hclosed, hcount]
          simp [String.intercalate_cons_cons]

theorem shiftReferences_append_inj {p x y : String} {a b : Nat} :
    shiftReferences a p ++ "|" ++ x = shiftReferences b p ++ "|" ++ y ↔
      (HasReference p → a % Piece.referenceBound = b % Piece.referenceBound) ∧ x = y := by
  rw [← String.toList_inj, ← forall_shifted_eq_iff]
  simp only [String.toList_append, toList_shiftReferences, List.append_assoc]
  rw [flatMap_shifted_append_inj (reads_pieces p) (by simp) (by simp)]
  simp [String.toList_inj]

theorem shiftReferences_inj {p : String} {a b : Nat} :
    shiftReferences a p = shiftReferences b p ↔
      (HasReference p → a % Piece.referenceBound = b % Piece.referenceBound) := by
  rw [← String.toList_inj, ← forall_shifted_eq_iff, toList_shiftReferences,
    toList_shiftReferences]
  have hinj := @flatMap_shifted_append_inj _ _ (reads_pieces p) a b [] [] (by simp) (by simp)
  simpa using hinj

/-- No reference in range comes after groups of patterns before its own, when so many groups come
before all of them. -/
def Undisturbed : Nat → List String → Prop
  | _, [] => True
  | groups, p :: rest =>
    (HasReference p → groups % Piece.referenceBound = 0) ∧ Undisturbed (groups + groupCount p) rest

theorem undisturbed_iff (groups : Nat) (ps : List String) :
    Undisturbed groups ps ↔ ∀ before p after, ps = before ++ p :: after → HasReference p →
      (groups + groupTotal before) % Piece.referenceBound = 0 := by
  induction ps generalizing groups with
  | nil => simp [Undisturbed]
  | cons p ps ih =>
      rw [Undisturbed, ih]
      constructor
      · rintro ⟨hfirst, hrest⟩ before q after hsplit hq
        cases before with
        | nil =>
            obtain ⟨rfl, rfl⟩ := List.cons.inj hsplit
            simpa using hfirst hq
        | cons r before =>
            obtain ⟨rfl, hps⟩ := List.cons.inj hsplit
            simpa [Nat.add_assoc] using hrest before q after hps hq
      · intro h
        refine ⟨fun hp => by simpa using h [] p ps rfl hp, ?_⟩
        rintro before q after rfl hq
        simpa [Nat.add_assoc] using h (p :: before) q after rfl hq

/-- Patterns that are renumbered all alike, from an offset that is too small by the given number of
groups, are renumbered right if no reference is disturbed. -/
theorem intercalate_shift_eq_iff (ps : List String) (offset groups : Nat) :
    "|".intercalate (ps.map (shiftReferences offset)) =
      "|".intercalate (shiftAll (offset + groups) ps) ↔ Undisturbed groups ps := by
  induction ps generalizing groups with
  | nil => simp [shiftAll, Undisturbed]
  | cons p ps ih =>
      have hmod : offset % Piece.referenceBound = (offset + groups) % Piece.referenceBound ↔
          groups % Piece.referenceBound = 0 := by
        simp only [Piece.referenceBound]
        omega
      rw [Undisturbed, ← ih, ← hmod]
      cases ps with
      | nil =>
          simp only [List.map_cons, List.map_nil, shiftAll, String.intercalate_singleton]
          rw [shiftReferences_inj]
          simp
      | cons q rest =>
          simp only [List.map_cons, shiftAll, String.intercalate_cons_cons]
          rw [shiftReferences_append_inj]
          simp only [Nat.add_assoc]

theorem shiftAll_append (offset : Nat) (ps qs : List String) :
    shiftAll offset (ps ++ qs) =
      shiftAll offset ps ++ shiftAll (offset + groupTotal ps) qs := by
  induction ps generalizing offset with
  | nil => simp [shiftAll]
  | cons p ps ih => simp [shiftAll, ih, Nat.add_assoc]

theorem length_shiftAll (offset : Nat) (ps : List String) :
    (shiftAll offset ps).length = ps.length := by
  induction ps generalizing offset with
  | nil => rfl
  | cons p ps ih => rw [shiftAll, List.length_cons, ih, List.length_cons]

/-- Texts joined by bars around a part that is not empty. -/
theorem exists_intercalate_around (before after : List String) :
    ∃ left right : String, ∀ middle ≠ [], "|".intercalate (before ++ middle ++ after) =
      left ++ "|".intercalate middle ++ right := by
  have hright : ∃ right : String, ∀ middle ≠ [],
      "|".intercalate (middle ++ after) = "|".intercalate middle ++ right := by
    by_cases hafter : after = []
    · exact ⟨"", fun middle _ => by simp [hafter]⟩
    · exact ⟨"|" ++ "|".intercalate after, fun middle hmiddle => by
        rw [String.intercalate_append_of_ne_nil hmiddle hafter, String.append_assoc]⟩
  obtain ⟨right, hright⟩ := hright
  by_cases hbefore : before = []
  · exact ⟨"", right, fun middle hmiddle => by simp [hbefore, hright middle hmiddle]⟩
  · refine ⟨"|".intercalate before ++ "|", right, fun middle hmiddle => ?_⟩
    rw [List.append_assoc, String.intercalate_append_of_ne_nil hbefore (by simp [hmiddle]),
      hright middle hmiddle, ← String.append_assoc]

/-- **Joining before renumbering.** Patterns that are joined first and renumbered as one come out
as if renumbered one by one exactly if none of their references is disturbed. -/
theorem compose_intercalate_eq_iff {before ps after : List String} (hps : ps ≠ [])
    (hclosed : ∀ p ∈ ps.dropLast, Closed p) :
    compose (before ++ ["|".intercalate ps] ++ after) "|" = compose (before ++ ps ++ after) "|" ↔
      Undisturbed 0 ps := by
  obtain ⟨hshift, hcount⟩ :=
    shiftReferences_intercalate hclosed (0 + groupTotal before)
  have htotal : groupTotal (before ++ ["|".intercalate ps]) = groupTotal (before ++ ps) := by
    simp [groupTotal_append, hcount]
  unfold compose
  rw [shiftAll_append, shiftAll_append, shiftAll_append _ (before ++ ps), shiftAll_append _ before,
    htotal]
  obtain ⟨left, right, haround⟩ := exists_intercalate_around (shiftAll 0 before)
    (shiftAll (0 + groupTotal (before ++ ps)) after)
  have hne : shiftAll (0 + groupTotal before) ps ≠ [] := by
    rw [← List.length_pos_iff, length_shiftAll, List.length_pos_iff]
    exact hps
  rw [haround _ (by simp [shiftAll]), haround _ hne]
  simp only [shiftAll, String.intercalate_singleton, hshift]
  rw [← intercalate_shift_eq_iff ps (0 + groupTotal before) 0, Nat.add_zero]
  rw [String.append_left_inj, String.append_right_inj]

end LexicalModes
