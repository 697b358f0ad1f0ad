import LexicalModes.Pattern.Bracket
import LexicalModes.Proofs.Pieces

/-!
Where the pieces of a pattern start, and what they add to the number of its groups. A parenthesis
that is counted is not a group for the reader of patterns if it stands in a class or a comment or
around the test of a conditional, and a group with a name is not counted. In an `Ordinary` pattern
only tests and names make a difference. What is still to be read of such a pattern has a weight
(`Tallies`), which does not change over plain characters, escapes and classes.
-/

namespace LexicalModes

open Pattern

/-! ### Where pieces start -/

/-- The texts that start with the pieces of a pattern, at most so many. -/
def pieceStartsUpTo : Nat → List Char → List (List Char)
  | 0, _ => []
  | fuel + 1, text =>
    match nextPiece? text with
    | some (_, rest) => text :: pieceStartsUpTo fuel rest
    | none => []

/-- The texts that start with the pieces of a pattern, each the rest of the pattern from there. -/
def pieceStarts (pattern : String) : List (List Char) :=
  pieceStartsUpTo pattern.toList.length pattern.toList

/-- A parenthesis that is counted as a group. -/
def opensCounted : List Char → Bool
  | '(' :: '?' :: _ => false
  | '(' :: _ => true
  | _ => false

/-- The start of a group with a name. -/
def opensNamed : List Char → Bool
  | '(' :: '?' :: '<' :: c :: _ => c != '=' && c != '!'
  | '(' :: '?' :: 'P' :: '<' :: _ => true
  | _ => false

/-- The start of a conditional, whose test has a parenthesis of its own. -/
def opensTest : List Char → Bool
  | '(' :: '?' :: '(' :: _ => true
  | _ => false

/-- Number of groups with a name. -/
def namedCount (pattern : String) : Nat := (pieceStarts pattern).countP opensNamed

/-- Number of conditionals. -/
def testCount (pattern : String) : Nat := (pieceStarts pattern).countP opensTest

/-- What the start of a piece adds to the number of groups, less the parenthesis of a test, which is
counted by itself. -/
def weight (text : List Char) : Int :=
  (opensCounted text).toInt + (opensNamed text).toInt - (opensTest text).toInt

/-! ### Ordinary patterns -/

/-- A character that is a piece by itself, whatever follows. -/
def isPlain (c : Char) : Bool := c != '[' && c != '(' && c != '\\'

/-- A character that is a piece by itself and passed over in a class. -/
def isInert (c : Char) : Bool := isPlain c && c != ']'

/-- The name of a property comes next, if any, in characters that mean nothing else. -/
def plainName (text : List Char) : Bool :=
  (propertyText? text).all fun (name, _) => name.all isInert

/-- An escape whose letter is followed by the name of a property only if it is a plain one. -/
def plainEscape (c : Char) (rest : List Char) : Bool :=
  !(c == 'p' || c == 'P') || plainName rest

/-- What comes after a class so many brackets of which are open, where brackets inside of it are
counted and all names are plain. -/
def afterClass? : Nat → List Char → Option (List Char)
  | _, [] => none
  | unclosed, ']' :: rest => if unclosed ≤ 1 then some rest else afterClass? (unclosed - 1) rest
  | unclosed, '[' :: rest => afterClass? (unclosed + 1) rest
  | unclosed, '\\' :: c :: rest => if plainEscape c rest then afterClass? unclosed rest else none
  | _, ['\\'] => none
  | unclosed, _ :: rest => afterClass? unclosed rest

/-- The text without the mark, if it starts with it. -/
def dropMark (mark : Char) (text : List Char) : List Char :=
  if text.head? = some mark then text.tail else text

/-- What comes after a class whose first bracket has been read. A bracket that comes first does not
close it. -/
def afterBracket? (text : List Char) : Option (List Char) :=
  afterClass? 1 (dropMark ']' (dropMark '^' text))

/-- A flag that does not have blanks skipped. -/
def isOtherFlag (c : Char) : Bool := "imsUu".toList.contains c

/-- A start that is ordinary: no comment and no flag that has blanks skipped, only plain names of
properties, and nothing but plain characters between the first bracket that may close a class and
the one that does. -/
def ordinaryStart : List Char → Bool
  | '[' :: body =>
    match classLength? body, afterBracket? body with
    | some n, some rest => (body.drop n).dropWhile isPlain == rest.dropWhile isPlain
    | _, _ => false
  | '(' :: '?' :: rest =>
    rest.head? != some '#' && (rest.dropWhile isOtherFlag).head? != some 'x'
  | '\\' :: c :: rest => plainEscape c rest
  | _ => true

/-- All pieces of the pattern have ordinary starts. -/
def Ordinary (pattern : String) : Prop := ∀ text ∈ pieceStarts pattern, ordinaryStart text = true

instance (pattern : String) : Decidable (Ordinary pattern) :=
  inferInstanceAs (Decidable (∀ text ∈ pieceStarts pattern, ordinaryStart text = true))

/-- The starts of the pieces of a text are ordinary, and this is what they weigh together. -/
inductive Tallies : List Char → Int → Prop
  | nil : Tallies [] 0
  | cons {text rest : List Char} {piece : Piece} {n : Int} : First text piece rest →
      ordinaryStart text = true → Tallies rest n → Tallies text (weight text + n)

theorem opensCounted_of_ne {c : Char} (hc : c ≠ '(') (rest : List Char) :
    opensCounted (c :: rest) = false := by
  rw [opensCounted] <;> simp [hc]

theorem opensCounted_opening {rest : List Char} (hhead : rest.head? ≠ some '?') :
    opensCounted ('(' :: rest) = true := by
  rw [opensCounted]
  rintro others rfl
  exact hhead rfl

theorem weight_of_ne {c : Char} (hc : c ≠ '(') (rest : List Char) : weight (c :: rest) = 0 := by
  have hnamed : opensNamed (c :: rest) = false := by
    rw [opensNamed] <;> simp [hc]
  have htest : opensTest (c :: rest) = false := by
    rw [opensTest]
    simp [hc]
  rw [weight, opensCounted_of_ne hc, hnamed, htest]
  rfl

theorem weight_opening {rest : List Char} (hhead : rest.head? ≠ some '?') :
    weight ('(' :: rest) = 1 := by
  have hnamed : opensNamed ('(' :: rest) = false := by
    rw [opensNamed]
    · rintro c others ⟨⟩
      exact hhead rfl
    · rintro others ⟨⟩
      exact hhead rfl
  have htest : opensTest ('(' :: rest) = false := by
    rw [opensTest]
    rintro others ⟨⟩
    exact hhead rfl
  rw [weight, opensCounted_opening hhead, hnamed, htest]
  rfl

theorem weight_named {c : Char} (hahead : c ≠ '=') (hnot : c ≠ '!') (rest : List Char) :
    weight ('(' :: '?' :: '<' :: c :: rest) = 1 := by
  have hnamed : opensNamed ('(' :: '?' :: '<' :: c :: rest) = true := by
    rw [opensNamed, Bool.and_eq_true, bne_iff_ne, bne_iff_ne]
    exact ⟨hahead, hnot⟩
  rw [weight, hnamed]
  rfl

theorem weight_marked {rest : List Char} (hangle : rest.head? ≠ some '<')
    (hletter : rest.head? ≠ some 'P') (hopening : rest.head? ≠ some '(') :
    weight ('(' :: '?' :: rest) = 0 := by
  have hnamed : opensNamed ('(' :: '?' :: rest) = false := by
    rw [opensNamed]
    · rintro c others ⟨⟩
      exact hangle rfl
    · rintro others ⟨⟩
      exact hletter rfl
  have htest : opensTest ('(' :: '?' :: rest) = false := by
    rw [opensTest]
    rintro others ⟨⟩
    exact hopening rfl
  rw [weight, hnamed, htest]
  rfl

theorem First.isOpening_eq {text rest : List Char} {piece : Piece} (h : First text piece rest) :
    piece.isOpening = opensCounted text := by
  cases h with
  | opening hhead => exact (opensCounted_opening hhead).symm
  | plain _ ho _ => exact (opensCounted_of_ne ho _).symm
  | bracket | looseBracket | marked | reference | escape | looseEscape => rfl

theorem isPlain_iff {c : Char} : isPlain c = true ↔ c ≠ '[' ∧ c ≠ '(' ∧ c ≠ '\\' := by
  simp [isPlain, and_assoc]

/-- A test that no bracket, opening parenthesis or backslash passes is one for inert characters. -/
theorem isInert_of_test {test : Char → Bool}
    (hmarks : test '[' = false ∧ test ']' = false ∧ test '(' = false ∧ test '\\' = false)
    {c : Char} (hc : test c = true) : isInert c = true := by
  have hne : ∀ {mark}, test mark = false → c ≠ mark := by
    rintro mark hmark rfl
    exact Bool.false_ne_true (hmark.symm.trans hc)
  obtain ⟨hbracket, hclosing, hopening, hescape⟩ := hmarks
  simp [isInert, isPlain, hne hbracket, hne hclosing, hne hopening, hne hescape]

theorem isPlain_of_isInert {c : Char} (hc : isInert c = true) : isPlain c = true :=
  (Bool.and_eq_true _ _ ▸ hc).1

theorem isInert_of_isDigit {c : Char} (hc : c.isDigit = true) : isInert c = true :=
  isInert_of_test (by decide) hc

theorem ordinaryStart_of_isPlain {c : Char} (hc : isPlain c = true) (rest : List Char) :
    ordinaryStart (c :: rest) = true := by
  obtain ⟨hbracket, hopening, hescape⟩ := isPlain_iff.1 hc
  rw [ordinaryStart] <;> simp [hbracket, hopening, hescape]

namespace Tallies

variable {text rest more : List Char} {piece : Piece} {n : Int}

/-- The first piece of a text, and what it weighs. -/
theorem uncons (h : Tallies text n) (hfirst : First text piece rest) :
    ordinaryStart text = true ∧ Tallies rest (n - weight text) := by
  cases h with
  | nil => cases hfirst
  | @cons _ _ _ m hfirst' hordinary hrest =>
      cases hfirst.nextPiece?_eq.symm.trans hfirst'.nextPiece?_eq
      rw [Int.add_comm, Int.add_sub_cancel]
      exact ⟨hordinary, hrest⟩

theorem eq_zero (h : Tallies [] n) : n = 0 := by
  cases h with
  | nil => rfl
  | cons hfirst => cases hfirst

/-- Plain characters can be put before a text or taken away. -/
theorem cons_plain_iff {c : Char} (hc : isPlain c = true) :
    Tallies (c :: rest) n ↔ Tallies rest n := by
  obtain ⟨hbracket, hopening, hescape⟩ := isPlain_iff.1 hc
  have hfirst := @First.plain c rest hbracket hopening hescape
  constructor
  · intro h
    have hrest := (h.uncons hfirst).2
    rwa [weight_of_ne hopening, Int.sub_zero] at hrest
  · intro h
    have hcons := Tallies.cons hfirst (ordinaryStart_of_isPlain hc rest) h
    rwa [weight_of_ne hopening, Int.zero_add] at hcons

theorem append_plain_iff {run : List Char} (hrun : ∀ c ∈ run, isPlain c = true) :
    Tallies (run ++ rest) n ↔ Tallies rest n := by
  induction run with
  | nil => exact Iff.rfl
  | cons c run ih =>
      rw [List.cons_append, cons_plain_iff (hrun c List.mem_cons_self),
        ih fun d hd => hrun d (List.mem_cons_of_mem _ hd)]

theorem dropWhile_iff (test : Char → Bool) (htest : ∀ c, test c = true → isPlain c = true) :
    Tallies (text.dropWhile test) n ↔ Tallies text n := by
  have hrun : ∀ c ∈ text.takeWhile test, isPlain c = true :=
    fun c hc => htest c (List.mem_takeWhile_imp hc)
  rw [← append_plain_iff hrun, List.takeWhile_append_dropWhile]

/-- An escape is passed by passing its backslash and the character after it. -/
theorem of_escape {c : Char} (h : Tallies ('\\' :: c :: rest) n) :
    plainEscape c rest = true ∧ Tallies rest n := by
  have hpassed : ∀ {piece more}, First ('\\' :: c :: rest) piece more →
      plainEscape c rest = true ∧ Tallies more n := by
    intro piece more hfirst
    obtain ⟨hordinary, hmore⟩ := h.uncons hfirst
    rw [weight_of_ne (by decide), Int.sub_zero] at hmore
    exact ⟨hordinary, hmore⟩
  cases hc : '1' ≤ c && c ≤ '9' with
  | true =>
      obtain ⟨hplain, hrest⟩ := hpassed (.reference hc)
      refine ⟨hplain, (dropWhile_iff Char.isDigit fun d hd => ?_).1 hrest⟩
      exact isPlain_of_isInert (isInert_of_isDigit hd)
  | false =>
      by_cases hline : c = '\n'
      · obtain ⟨hplain, hrest⟩ := hpassed (.looseEscape (by simp [hline]))
        exact ⟨hplain, (cons_plain_iff (by simp [hline, isPlain])).1 hrest⟩
      · exact hpassed (.escape hc hline)

/-- A class is passed by passing the bracket that closes it. -/
theorem of_bracket {body : List Char} (h : Tallies ('[' :: body) n) :
    ∃ rest, afterBracket? body = some rest ∧ Tallies rest n := by
  cases hlength : classLength? body with
  | none =>
      have hordinary := (h.uncons (.looseBracket hlength)).1
      rw [ordinaryStart, hlength] at hordinary
      cases hordinary
  | some m =>
      obtain ⟨hordinary, hrest⟩ := h.uncons (.bracket hlength)
      rw [weight_of_ne (by decide), Int.sub_zero] at hrest
      rw [ordinaryStart, hlength] at hordinary
      cases hafter : afterBracket? body with
      | none =>
          rw [hafter] at hordinary
          cases hordinary
      | some rest =>
          rw [hafter] at hordinary
          have hsame := eq_of_beq hordinary
          refine ⟨rest, rfl, ?_⟩
          rw [← dropWhile_iff isPlain fun _ hc => hc, ← hsame]
          exact (dropWhile_iff isPlain fun _ hc => hc).2 hrest

theorem of_opening (h : Tallies ('(' :: rest) n) (hhead : rest.head? ≠ some '?') :
    Tallies rest (n - 1) := by
  have hrest := (h.uncons (.opening hhead)).2
  rwa [weight_opening hhead] at hrest

theorem of_marked (h : Tallies ('(' :: '?' :: rest) n) :
    rest.head? ≠ some '#' ∧ (rest.dropWhile isOtherFlag).head? ≠ some 'x' ∧
      Tallies rest (n - weight ('(' :: '?' :: rest)) := by
  obtain ⟨hordinary, hrest⟩ := h.uncons .marked
  rw [ordinaryStart, Bool.and_eq_true, bne_iff_ne, bne_iff_ne] at hordinary
  exact ⟨hordinary.1, hordinary.2, hrest⟩

/-- No comment comes next. -/
theorem skipFrom_eq (h : Tallies text n) : skipFrom false .nothing text = some text := by
  cases text with
  | nil => rfl
  | cons c rest =>
      rw [skipFrom]
      · rfl
      · rintro others rfl rfl
        exact h.of_marked.1 rfl

end Tallies

theorem cast_countP_cons {α : Type} (test : α → Bool) (a : α) (rest : List α) :
    ((a :: rest).countP test : Int) = rest.countP test + (test a).toInt := by
  rw [List.countP_cons]
  cases test a with
  | false => rfl
  | true => rfl

/-- Fuel for every character is enough. -/
theorem tallies_piecesUpTo (fuel : Nat) {text : List Char} (hfuel : text.length ≤ fuel)
    (h : ∀ start ∈ pieceStartsUpTo fuel text, ordinaryStart start = true) :
    Tallies text ((piecesUpTo fuel text).countP Piece.isOpening +
      (pieceStartsUpTo fuel text).countP opensNamed -
        (pieceStartsUpTo fuel text).countP opensTest) := by
  induction fuel generalizing text with
  | zero =>
      obtain rfl := List.length_eq_zero_iff.1 (Nat.le_zero.1 hfuel)
      exact .nil
  | succ fuel ih =>
      rw [pieceStartsUpTo] at h ⊢
      rw [piecesUpTo]
      cases hnext : nextPiece? text with
      | none =>
          cases text with
          | nil => exact .nil
          | cons c rest => exact absurd hnext (nextPiece?_ne_none c rest)
      | some found =>
          simp only [hnext, List.forall_mem_cons] at h
          have hfirst := First.of_nextPiece? hnext
          have hlt := hfirst.length_lt
          have hcons := Tallies.cons hfirst h.1 (ih (by omega) h.2)
          convert hcons using 1
          rw [cast_countP_cons, cast_countP_cons, cast_countP_cons, hfirst.isOpening_eq, weight]
          omega

/-- The starts of an ordinary pattern weigh as much as the groups that are counted and those with a
name, less the tests. -/
theorem Ordinary.tallies {p : String} (h : Ordinary p) :
    Tallies p.toList (groupCount p + namedCount p - testCount p) :=
  tallies_piecesUpTo _ (Nat.le_refl _) h

end LexicalModes
